import Sipahi.KernelReference
import Sipahi.SntmCapTable
import Sipahi.SntmProfiles

/-!
# From a manifest task to a task that can start

Validator, code generators and kernel each check part of what a task needs. `Startable` is what
none of them checks.
-/
namespace SntmRealisation

open KernelTypes KernelPmp KernelPmpReload KernelCapability KernelState KernelScheduler
open KernelReference SntmManifest SntmAcceptance SntmCodegen SntmIsolation SntmCapFile
open SntmCapTable SntmProfiles

/-! ## `native_create_task` -/

theorem nativeCreateTask_some {P : Platform} {s u : Sys} {cfg : NativeTaskConfig} {i : TaskIndex}
    (h : nativeCreateTask P s cfg = .ok (u, some i)) :
    ∃ text rest stack, (P.pmpProfiles i).activeRegions = text :: rest ∧
      (text :: rest).getLast? = some stack ∧ stack.base + stack.size ≤ usizeMax ∧
      (u.tasks i).entry = text.base := by
  rw [nativeCreateTask] at h
  split at h
  · split at h
    · cases h
    · dsimp only at h
      split at h
      · cases h
      · rename_i text rest hregions
        split at h
        · cases h
        · split at h
          · cases h
          · rename_i stackEnd hend
            simp only [Except.ok.injEq, Prod.mk.injEq, Option.some.injEq] at h
            obtain ⟨rfl, rfl⟩ := h
            refine ⟨text, rest, _, hregions, List.getLast?_eq_some_getLast (by simp), ?_, by simp⟩
            rw [checkedAdd] at hend
            split at hend
            · assumption
            · cases hend
  · cases h

theorem nativeCreateTask_dead {P : Platform} {s : Sys} {cfg : NativeTaskConfig} {i : TaskIndex}
    {text stack : Region} {rest : List Region} (hid : cfg.taskId = i.val)
    (hbudget : cfg.budgetCycles ≠ 0) (hdead : (s.tasks i).state = .dead)
    (hregions : (P.pmpProfiles i).activeRegions = text :: rest)
    (hstack : (text :: rest).getLast? = some stack) (hend : stack.base + stack.size ≤ usizeMax) :
    ∃ u, nativeCreateTask P s cfg = .ok (u, some i) ∧ (u.tasks i).entry = text.base := by
  have hslot : cfg.taskId < maxTasks := hid ▸ i.isLt
  have hi : (⟨cfg.taskId, hslot⟩ : TaskIndex) = i := Fin.ext hid
  have hlast : (text :: rest).getLast (by simp) = stack := by
    rw [List.getLast?_eq_some_getLast (by simp)] at hstack
    exact Option.some.inj hstack
  have hadd : checkedAdd stack.base stack.size = some (stack.base + stack.size) := if_pos hend
  have hinactive : ¬ ((s.tasks i).state = .ready ∨ (s.tasks i).state = .running) := by
    rw [hdead]
    decide
  rw [nativeCreateTask]
  rw [dif_pos hslot, if_neg hbudget]
  simp only [hi, hregions, if_neg hinactive, hlast, hadd]
  exact ⟨_, rfl, by simp⟩

/-! ## Realisation -/

/-- A kernel build with the tables generated from the manifest. -/
structure BuiltFrom (P : Platform) (m : Manifest) : Prop where
  profiles : ProfilesFrom P m
  capTable : (compileCapTable (generateCapTableRs m)).map CapTables.localCapTable =
    some P.localCapTable

/-- The names stay inside the comments of both files. -/
structure NamesSilent (m : Manifest) : Prop where
  profiles : ProfileNamesSilent m
  capTable : CapNamesSilent m

/-- The row holds the task's grants and denies everything else. -/
def RowOf (row : Fin maxResources → CapAction) (t : TaskEntry) : Prop :=
  ∀ j : Fin maxResources,
    (∃ g ∈ t.localCaps, g.resourceId = j.val ∧ (row j).bits = actionBits g.action) ∨
      ((∀ g ∈ t.localCaps, g.resourceId ≠ j.val) ∧ (row j).bits = 0)

/-- The task has its slot, its regions in order, its row of grants, and creating it sets the
entry point inside one of its executable regions. -/
def Realised (P : Platform) (s : Sys) (t : TaskEntry) (cfg : NativeTaskConfig) : Prop :=
  ∃ slot : TaskIndex, slot.val = t.taskId ∧
    (P.pmpProfiles slot).activeRegions.map (fun r => (r.base, r.size, r.perm)) =
      t.regions.map (fun r => (r.base, r.size, grantedPerm r.perm)) ∧
    RowOf (P.localCapTable slot) t ∧
    ∃ u, nativeCreateTask P s cfg = .ok (u, some slot) ∧
      ∃ r ∈ t.regions, (grantedPerm r.perm).x = true ∧ r.base ≤ (u.tasks slot).entry ∧
        (u.tasks slot).entry < r.base + r.size

/-- What no stage checks: a slot of the task table, a first region that can be executed, and a
stack that ends inside the address space. -/
def Startable (t : TaskEntry) : Prop :=
  t.taskId < maxTasks ∧ ∃ text rest stack, t.regions = text :: rest ∧ text.perm = "RX" ∧
    t.regions.getLast? = some stack ∧ stack.base + stack.size < 2 ^ 64

theorem executable_iff {perm : String} : (grantedPerm perm).x = true ↔ perm = "RX" := by
  constructor
  · intro h
    simp only [grantedPerm] at h
    split at h
    · rfl
    all_goals cases h
  · rintro rfl
    rfl

theorem BuiltFrom.rowOf {P : Platform} {m : Manifest} (hbuilt : BuiltFrom P m) (h : Accepted m)
    (hnames : CapNamesSilent m) {t : TaskEntry} (ht : t ∈ m.tasks) {i : TaskIndex}
    (hi : i.val = t.taskId) : RowOf (P.localCapTable i) t := by
  have htable := hbuilt.capTable
  rw [compileCapTable_eq h hnames, Option.map_some, Option.some.injEq] at htable
  rw [← htable]
  intro j
  rcases compiledRow_cells h i j with
    ⟨action, ⟨u, hu, huid, g, hg, hresource, rfl⟩, hbits⟩ | ⟨hnone, hbits⟩
  · have hut : u = t := List.inj_on_of_nodup_map h.taskIds hu ht (huid.trans hi)
    subst hut
    exact .inl ⟨g, hg, hresource, hbits⟩
  · refine .inr ⟨?_, hbits⟩
    intro g hg hresource
    exact hnone g.action ⟨t, ht, hi.symm, g, hg, hresource, rfl⟩

theorem first_of_contains {m : Manifest} (h : Accepted m) {t : TaskEntry} (ht : t ∈ m.tasks)
    {text r : RegionEntry} {rest : List RegionEntry} (hregions : t.regions = text :: rest)
    (hr : r ∈ t.regions) (hlow : r.base ≤ text.base) (hhigh : text.base < r.base + r.size) :
    r = text := by
  rw [hregions] at hr
  rcases List.mem_cons.mp hr with rfl | hr
  · rfl
  · have hapart := (List.pairwise_flatMap.mp (Accepted.apart h)).1 t ht
    obtain ⟨k, hk⟩ := Accepted.encoded h ht (hregions ▸ List.mem_cons_self : text ∈ t.regions)
    have hsize := hk.size_ge
    rw [hregions] at hapart
    have hpair := (List.pairwise_cons.mp hapart).1 r hr
    omega

theorem startable_of_realised {P : Platform} {s : Sys} {m : Manifest} (hprofiles : ProfilesOf P m)
    (h : Accepted m) {t : TaskEntry} (ht : t ∈ m.tasks) {cfg : NativeTaskConfig}
    (hrealised : Realised P s t cfg) : Startable t := by
  obtain ⟨slot, hslot, _, _, u, hcreate, r, hr, hexec, hlow, hhigh⟩ := hrealised
  obtain ⟨text, rest, stack, hactive, hlast, hend, hentry⟩ := nativeCreateTask_some hcreate
  rw [← hactive, hprofiles.of_mem h ht hslot, List.getLast?_map] at hlast
  rw [hprofiles.of_mem h ht hslot] at hactive
  obtain ⟨textEntry, restEntries, hregions, rfl, _⟩ := List.map_eq_cons_iff.mp hactive
  obtain ⟨stackEntry, hstack, rfl⟩ := Option.map_eq_some_iff.mp hlast
  rw [hentry] at hlow hhigh
  have hfirst : r = textEntry := first_of_contains h ht hregions hr hlow hhigh
  subst hfirst
  refine ⟨hslot ▸ slot.isLt, r, restEntries, stackEntry, hregions, executable_iff.mp hexec, hstack, ?_⟩
  simp only [compiledRegion, usizeMax] at hend
  omega

theorem realised_of_startable {P : Platform} {s : Sys} {m : Manifest} (hbuilt : BuiltFrom P m)
    (h : Accepted m) (hnames : NamesSilent m) {t : TaskEntry} (ht : t ∈ m.tasks) {cfg : NativeTaskConfig}
    (hid : cfg.taskId = t.taskId) (hbudget : cfg.budgetCycles ≠ 0)
    (hdead : ∀ i : TaskIndex, i.val = t.taskId → (s.tasks i).state = .dead)
    (hstartable : Startable t) : Realised P s t cfg := by
  obtain ⟨hlt, text, rest, stack, hregions, hperm, hstack, hend⟩ := hstartable
  have hprofiles := hbuilt.profiles.profilesOf h hnames.profiles
  have hactive : (P.pmpProfiles ⟨t.taskId, hlt⟩).activeRegions = t.regions.map compiledRegion :=
    hprofiles.of_mem h ht rfl
  have hcons : (P.pmpProfiles ⟨t.taskId, hlt⟩).activeRegions =
      compiledRegion text :: rest.map compiledRegion := by
    rw [hactive, hregions, List.map_cons]
  have hlast : (compiledRegion text :: rest.map compiledRegion).getLast? =
      some (compiledRegion stack) := by
    rw [← List.map_cons, ← hregions, List.getLast?_map, hstack]
    rfl
  have hfits : (compiledRegion stack).base + (compiledRegion stack).size ≤ usizeMax := by
    simp only [compiledRegion, usizeMax]
    omega
  obtain ⟨u, hcreate, hentry⟩ := nativeCreateTask_dead (i := ⟨t.taskId, hlt⟩) hid hbudget
    (hdead _ rfl) hcons hlast hfits
  have htext : text ∈ t.regions := hregions ▸ List.mem_cons_self
  obtain ⟨k, hk⟩ := Accepted.encoded h ht htext
  have hsize := hk.size_ge
  have hbase : (compiledRegion text).base = text.base := rfl
  refine ⟨⟨t.taskId, hlt⟩, rfl, ?_, hbuilt.rowOf h hnames.capTable ht rfl, u, hcreate, text, htext,
    executable_iff.mpr hperm, ?_, ?_⟩
  · rw [hactive, List.map_map]
    rfl
  · rw [hentry, hbase]
  · rw [hentry, hbase]
    omega

/-- A task of an accepted manifest is realised exactly when it is startable. -/
theorem task_realised_iff (P : Platform) (s : Sys) (m : Manifest) (host : Option Host)
    (hok : validateAll m host = .ok ()) (hnames : NamesSilent m) (hbuilt : BuiltFrom P m)
    (t : TaskEntry) (ht : t ∈ m.tasks) (cfg : NativeTaskConfig) (hid : cfg.taskId = t.taskId)
    (hbudget : cfg.budgetCycles ≠ 0)
    (hdead : ∀ i : TaskIndex, i.val = t.taskId → (s.tasks i).state = .dead) :
    Realised P s t cfg ↔ Startable t := by
  have haccepted := accepted_of_validateAll hok
  constructor
  · exact startable_of_realised (hbuilt.profiles.profilesOf haccepted hnames.profiles) haccepted ht
  · exact realised_of_startable hbuilt haccepted hnames ht hid hbudget hdead

/-- The tables of such a manifest in place of the reference ones. -/
def builtPlatform (m : Manifest) : Platform :=
  { referencePlatform with
    pmpProfiles := fun i => (slotProfile m i).profile
    localCapTable := compiledRow m }

theorem exists_profilesFrom {m : Manifest} (h : Accepted m) (hnames : ProfileNamesSilent m) :
    ∃ P, ProfilesFrom P m :=
  ⟨builtPlatform m, slotProfile m, compileProfiles_eq h hnames, fun _ => rfl⟩

theorem exists_builtFrom {m : Manifest} (h : Accepted m) (hnames : NamesSilent m) :
    ∃ P, BuiltFrom P m := by
  refine ⟨builtPlatform m, ⟨slotProfile m, compileProfiles_eq h hnames.profiles, fun _ => rfl⟩, ?_⟩
  rw [compileCapTable_eq h hnames.capTable]
  rfl

theorem taskHello_realised :
    ∃ P, BuiltFrom P sipahiToml ∧
      Realised P (Sys.cold resetHart 0 fun _ => 0) taskHello ⟨2, 6, 3, 100000, 10⟩ := by
  have hnames : NamesSilent sipahiToml := ⟨by decide +kernel, by decide +kernel⟩
  obtain ⟨P, hP⟩ := exists_builtFrom (accepted_of_validateAll sipahiToml_accepted) hnames
  refine ⟨P, hP, ?_⟩
  apply (task_realised_iff P _ sipahiToml (some workspaceHost) sipahiToml_accepted hnames hP taskHello
    (by decide) ⟨2, 6, 3, 100000, 10⟩ rfl (by decide) (fun _ _ => rfl)).mpr
  exact ⟨by decide, _, _, _, rfl, rfl, rfl, by decide⟩

/-- A task id past the task table. -/
def taskEight : Manifest where
  pmpEntries := 16
  tasks := [{ taskHello with
    taskId := 8, taskId_le := by decide, localCaps := [], demoFeatureWaivers := [] }]

theorem task_eight_not_realised :
    ¬ ∀ (P : Platform) (s : Sys) (m : Manifest) (host : Option Host), validateAll m host = .ok () →
      BuiltFrom P m → ∀ t ∈ m.tasks, ∀ cfg : NativeTaskConfig, cfg.taskId = t.taskId →
      cfg.budgetCycles ≠ 0 → (∀ i : TaskIndex, i.val = t.taskId → (s.tasks i).state = .dead) →
      Realised P s t cfg := by
  intro hall
  have hok : validateAll taskEight (some workspaceHost) = .ok () := by decide +kernel
  have hnames : NamesSilent taskEight := ⟨by decide +kernel, by decide +kernel⟩
  obtain ⟨P, hP⟩ := exists_builtFrom (accepted_of_validateAll hok) hnames
  have hrealised := hall P (Sys.cold resetHart 0 fun _ => 0) taskEight _ hok hP _
    (List.mem_singleton.mpr rfl) ⟨8, 6, 3, 100000, 10⟩ rfl (by decide) (fun _ _ => rfl)
  obtain ⟨slot, hslot, _⟩ := hrealised
  have hlt : slot.val < 8 := slot.isLt
  have height : slot.val = 8 := hslot
  omega

end SntmRealisation
