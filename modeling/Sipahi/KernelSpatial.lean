import Sipahi.KernelStatics
import Sipahi.KernelIpcSyscalls
import Sipahi.KernelPmpAgreement
import Sipahi.KernelResume
import Mathlib.Data.List.Pairwise

/-!
# Spatial isolation over whole runs

At every return to U-mode the PMP registers are those that boot locked together with those of the
task that is about to execute. What the hart then lets the task touch is stated byte by byte.
-/
namespace KernelSpatial

open KernelTypes KernelPmp KernelPmpReload KernelPmpAgreement KernelState KernelTrapFrame
open KernelScheduler KernelSyscall KernelIpcSyscalls KernelTrap KernelHandlers KernelEvolution
open KernelSelection KernelBoot KernelTaskInvariants KernelResume KernelStatics KernelReference
open GuardedExecution RiscvPmp SntmManifest SntmAcceptance SntmCodegen SntmIsolation SntmProfiles

/-- The registers after `init_pmp`. -/
def bootPmp (P : Platform) : Pmp := Pmp.reset.initPmp P.sections

/-! ## Loading the entries of a task -/

theorem inSync_napot {p : Pmp} (h : InSync p) (addr : ℕ) :
    InSync ((p.writePerTaskNapot addr pmpNapotRw).updateTaskPmpShadow addr pmpNapotRw) :=
  inSync_applySwitch h (.legacy addr)

theorem sameLocked_napot (p : Pmp) (addr : ℕ) : SameLocked p
    ((p.writePerTaskNapot addr pmpNapotRw).updateTaskPmpShadow addr pmpNapotRw) :=
  sameLocked_applySwitch p (.legacy addr)

theorem inSync_reload {p : Pmp} (h : InSync p) (profile : PmpProfile) :
    InSync (p.reloadPmpProfile profile) := by
  refine ⟨h.cfg0, ?_, rfl, ?_⟩
  · intro i
    have hlow : ¬ 8 ≤ i.val := by omega
    simpa [Pmp.reloadPmpProfile, Pmp.updateDynamicPmpShadow, hlow] using h.addrs i
  · intro i
    simp [Pmp.reloadPmpProfile, Pmp.updateDynamicPmpShadow]

theorem sameLocked_reload (p : Pmp) (profile : PmpProfile) :
    SameLocked p (p.reloadPmpProfile profile) := by
  refine ⟨rfl, ?_⟩
  intro i hi
  have hlow : ¬ 8 ≤ i.val := by omega
  simp [Pmp.reloadPmpProfile, Pmp.updateDynamicPmpShadow, hlow]

/-- A native task brings the entries of a profile that is not empty, a legacy one its stack. -/
theorem loadTaskPmp_ok {P : Platform} {p q : Pmp} {t : Task} {reason : String}
    (h : loadTaskPmp P p t reason = .ok q) :
    (t.isSntmNative = true ∧ ∃ profile, P.getPmpProfile t.id = some profile ∧
      q = p.reloadPmpProfile profile) ∨
    (t.isSntmNative = false ∧
      q = (p.writePerTaskNapot t.pmpAddrNapot pmpNapotRw).updateTaskPmpShadow t.pmpAddrNapot
        pmpNapotRw) := by
  rw [loadTaskPmp] at h
  split at h
  · rename_i hnative
    split at h
    · rename_i profile hprofile
      split at h
      · cases h
      · cases h
        exact .inl ⟨hnative, profile, hprofile, rfl⟩
    · cases h
  · rename_i hlegacy
    cases h
    exact .inr ⟨by simpa using hlegacy, rfl⟩

theorem loadTaskPmp_keeps {P : Platform} {p q : Pmp} {t : Task} {reason : String}
    (h : loadTaskPmp P p t reason = .ok q) (hsync : InSync p) : InSync q ∧ SameLocked p q := by
  rcases loadTaskPmp_ok h with ⟨-, profile, -, rfl⟩ | ⟨-, rfl⟩
  · exact ⟨inSync_reload hsync profile, sameLocked_reload p profile⟩
  · exact ⟨inSync_napot hsync _, sameLocked_napot p _⟩

/-- Nothing that a task changes while it runs decides its entries. -/
theorem loadTaskPmp_config {P : Platform} {p : Pmp} {t u : Task} {reason : String}
    (h : config t = config u) : loadTaskPmp P p t reason = loadTaskPmp P p u reason := by
  have hnative : t.isSntmNative = u.isSntmNative := config_field Task.isSntmNative (fun _ => rfl) h
  have haddr : t.pmpAddrNapot = u.pmpAddrNapot := config_field Task.pmpAddrNapot (fun _ => rfl) h
  simp only [loadTaskPmp, hnative, haddr, config_id h]

/-! ## Who loads -/

theorem switchTo_loads {P : Platform} {s u : Sys} {old next : TaskIndex} {flow : Flow}
    (h : switchTo P s old next = .ok (u, flow)) :
    ∃ reason, loadTaskPmp P s.pmp u.current reason = .ok u.pmp := by
  rw [switchTo] at h
  obtain ⟨pmp, hpmp, h⟩ := bind_eq_ok.mp h
  dsimp only at h
  split at h
  · cases h
    exact ⟨_, hpmp⟩
  · split at h
    · cases h
      exact ⟨_, hpmp⟩
    · cases h

theorem select_loads {P : Platform} {s u : Sys} {flow : Flow}
    (h : doPrioritySelectAndSwitch P s s.currentTask = .ok (u, flow)) :
    (u.pmp = s.pmp ∧ u.currentTask = s.currentTask) ∨
      ∃ reason, loadTaskPmp P s.pmp u.current reason = .ok u.pmp := by
  rw [doPrioritySelectAndSwitch] at h
  split at h
  · cases h
    exact .inl ⟨rfl, rfl⟩
  · exact .inr (switchTo_loads h)

section

variable {P : Platform} {u w : Sys} {mtime mcause syscallId arg0 arg1 arg2 : ℕ} {r : Option ℕ}

theorem atSelection_loads {q : Sys} {flow : Flow} (hc : u.current.state ≠ .dead)
    (hq : AtSelection P u mtime mcause syscallId q)
    (h : doPrioritySelectAndSwitch P q u.currentTask = .ok (w, flow)) :
    (w.pmp = u.pmp ∧ w.currentTask = u.currentTask) ∨
      ∃ reason, loadTaskPmp P u.pmp w.current reason = .ok w.pmp := by
  have hcur := (atSelection_evolves hc hq).currentTask
  have hpmp := (atSelection_statics hq).1
  rw [← hcur, ← hpmp]
  rw [← hcur] at h
  exact select_loads h

/-- A trap leaves the registers and the current task alone, or loads those of the new one. -/
theorem serves_loads (hc : u.current.state ≠ .dead)
    (h : Serves P u mtime mcause syscallId arg0 arg1 arg2 w r) :
    (w.pmp = u.pmp ∧ w.currentTask = u.currentTask) ∨
      ∃ reason, loadTaskPmp P u.pmp w.current reason = .ok w.pmp := by
  have hinc := countFrame_statics (incrementSyscallCount_counted u)
  have hcur := incrementSyscallCount_currentTask u
  have hc' := (ipcFrame_evolves (incrementSyscallCount_frame u)).1.currentAlive hc
  cases h with
  | ignored => exact .inl ⟨rfl, rfl⟩
  | emptyTick _ hv _ =>
    exact .inl ⟨(deadlinePhase_statics hv).pmp, (deadlinePhase_evolves hc hv).1.currentTask⟩
  | @tick v q _ flow ht hv hq hw =>
    rw [(deadlinePhase_evolves hc hv).1.currentTask] at hw
    have hsel : AtSelection P u mtime mcause syscallId q := .inl ⟨ht, v, hv, hq⟩
    exact atSelection_loads hc hsel hw
  | badSyscall => exact .inl ⟨rfl, rfl⟩
  | capInvoke _ _ hw =>
    exact .inl ⟨(hinc.trans (sysCapInvoke_statics hw)).pmp,
      (sysCapInvoke_evolves hc' hw).1.currentTask.trans hcur⟩
  | ipcSend =>
    exact .inl ⟨(sysIpcSend_frame P _ arg0 arg1).pmp.trans hinc.pmp,
      (ipcFrame_evolves (sysIpcSend_frame P _ arg0 arg1)).1.currentTask.trans hcur⟩
  | ipcRecv =>
    exact .inl ⟨(sysIpcRecv_frame P _ arg0 arg1).pmp.trans hinc.pmp,
      (ipcFrame_evolves (sysIpcRecv_frame P _ arg0 arg1)).1.currentTask.trans hcur⟩
  | taskInfo => exact .inl ⟨hinc.pmp, hcur⟩
  | @yield q _ flow he hid hq hw =>
    have hsel : AtSelection P u mtime mcause syscallId q := .inr (.inl ⟨he, hid, hq⟩)
    rw [scheduleYield] at hw
    split at hw
    · cases hw
      exact .inl ⟨(atSelection_statics hsel).1, (atSelection_evolves hc hsel).currentTask⟩
    · rw [(atSelection_evolves hc hsel).currentTask] at hw
      exact atSelection_loads hc hsel hw
  | @exit q _ flow he hid hq hw =>
    have hsel : AtSelection P u mtime mcause syscallId q := .inr (.inr ⟨he, hid, hq⟩)
    rw [scheduleYield] at hw
    split at hw
    · cases hw
      exact .inl ⟨(atSelection_statics hsel).1, (atSelection_evolves hc hsel).currentTask⟩
    · rw [(atSelection_evolves hc hsel).currentTask] at hw
      exact atSelection_loads hc hsel hw
  | taskFault _ _ hw =>
    exact .inl ⟨((log_statics ..).trans (handleTaskFault_statics hw)).pmp,
      (handleTaskFault_evolves (by exact hc) hw).1.currentTask⟩
  | stackOverflow _ _ hw =>
    exact .inl ⟨(logged_respond_statics hw).pmp,
      (respond_evolves (Or.inl rfl) (by exact hc) hw).currentTask⟩

end

theorem trap_loads {P : Platform} {s v : Sys} {e : TrapEvent} (hi : TaskInv s)
    (h : trap P s e = .ok v) : (v.pmp = s.pmp ∧ v.currentTask = s.currentTask) ∨
      ∃ reason, loadTaskPmp P s.pmp v.current reason = .ok v.pmp := by
  obtain ⟨u, args, w, r, ⟨hu, hserves⟩, rfl⟩ := trap_ok h
  have hui := taskInv_sameKernel (entered_sameKernel hu) hi
  obtain ⟨k, -, -, rfl⟩ := enterHandler_ok hu
  have hload := serves_loads hui.currentAlive hserves
  cases r <;> exact hload

/-! ## Every reachable state -/

/-- The registers are in step with their shadows, the locked ones are as boot left them, and the
others were loaded for the current task. -/
structure Resident (P : Platform) (s : Sys) : Prop where
  inSync : InSync s.pmp
  locked : SameLocked (bootPmp P) s.pmp
  loaded : ∃ p reason, SameLocked (bootPmp P) p ∧ loadTaskPmp P p s.current reason = .ok s.pmp

theorem initial_loads {P : Platform} {s : Sys} (h : (kernel P).Initial s) :
    ∃ reason, loadTaskPmp P (bootPmp P) s.current reason = .ok s.pmp := by
  obtain ⟨hart, mtimecmp, userMem, calls, h⟩ := h
  obtain ⟨q, hq, h⟩ := bind_eq_ok.mp h
  have hpmp : q.pmp = bootPmp P :=
    run_keeps (M := bootSequence P) (I := fun q => q.pmp = bootPmp P)
      (fun _ _ _ hx hu => (bootCall_frame hu).pmp.trans hx) rfl hq
  rw [startFirstTask] at h
  split at h
  · cases h
  · split at h
    · cases h
    · obtain ⟨pmp, hload, h⟩ := bind_eq_ok.mp h
      cases h
      rw [hpmp] at hload
      exact ⟨_, hload⟩

theorem inSync_bootPmp (P : Platform) : InSync (bootPmp P) := inSync_initPmp P.sections 0 rfl

theorem resident_loaded {P : Platform} {s : Sys} {p : Pmp} {reason : String} (hsync : InSync p)
    (hlocked : SameLocked (bootPmp P) p) (h : loadTaskPmp P p s.current reason = .ok s.pmp) :
    Resident P s := by
  obtain ⟨hs, hl⟩ := loadTaskPmp_keeps h hsync
  exact ⟨hs, hlocked.trans hl, p, reason, hlocked, h⟩

theorem resident_initial {P : Platform} {s : Sys} (h : (kernel P).Initial s) : Resident P s := by
  obtain ⟨reason, hload⟩ := initial_loads h
  exact resident_loaded (inSync_bootPmp P) ⟨rfl, fun _ _ => rfl⟩ hload

theorem resident_trap {P : Platform} {s v : Sys} {e : TrapEvent} (hi : TaskInv s)
    (hr : Resident P s) (h : trap P s e = .ok v) : Resident P v := by
  rcases trap_loads hi h with ⟨hpmp, hcur⟩ | ⟨reason, hload⟩
  · obtain ⟨p, reason, hlocked, hload⟩ := hr.loaded
    refine ⟨hpmp ▸ hr.inSync, hpmp ▸ hr.locked, p, reason, hlocked, ?_⟩
    have hcfg : config v.current = config s.current := by
      simp only [Sys.current, hcur]
      exact (trap_sameTable hi h).config s.currentTask
    rw [hpmp, ← hload]
    exact loadTaskPmp_config hcfg
  · exact resident_loaded hr.inSync hr.locked hload

theorem resident_reachable {P : Platform} {guard : Sys → TrapEvent → Prop} {s : Sys}
    (h : Reachable (kernel P) guard s) : Resident P s :=
  reachable_invariant (fun _ h0 => resident_initial h0)
    (fun _ _ _ hr hs _ hst => resident_trap (reachable_taskInv hr) hs hst) h

/-! ## The kernel's own entries -/

/-- A section of the kernel image with the permissions of its entry. A locked entry binds every
mode, so these are also the permissions that a task has there. -/
structure Section where
  lo : ℕ
  hi : ℕ
  perm : Permission

/-- Both ends of the range are cut down to a multiple of four. -/
def Section.holds (sec : Section) (a : ℕ) : Bool :=
  decide (sec.lo >>> 2 * 4 ≤ a) && decide (a < sec.hi >>> 2 * 4)

def kernelSections (b : SectionBounds) : List Section :=
  [⟨b.textStart, b.textEnd, .RX⟩, ⟨b.rodataStart, b.rodataEnd, .R⟩,
    ⟨b.dataStart, b.pmpDataEnd, .RW⟩] ++
    if b.uartMapped then [⟨uartBase, uartEnd, .RW⟩] else []

/-- `.data` and `.bss` of the kernel. Their entry lets a task store there, which rewrites the state
of the kernel itself. -/
def kernelData (P : Platform) : Section := ⟨P.sections.dataStart, P.sections.pmpDataEnd, .RW⟩

/-- The hart refuses every store that the PMP does not permit, and the task makes none into the
kernel's data. -/
def StoresPermitted (P : Platform) (s : Sys) (e : TrapEvent) : Prop :=
  ∀ a, e.userMem a ≠ s.userMem a →
    permitted s.pmp .write a = true ∧ (kernelData P).holds a = false

def sectionAt (P : Platform) (a : ℕ) : Option Section :=
  (kernelSections P.sections).find? (·.holds a)

/-- An address register that is no region of its own, and the end of a locked section. -/
def lowerBound (a : ℕ) : Entry := ⟨0, a >>> 2⟩

def lockedTop (perm : Permission) (a : ℕ) : Entry :=
  ⟨permToCfg perm ||| pmpTor ||| pmpL, a >>> 2⟩

def Section.pair (sec : Section) : List Entry := [lowerBound sec.lo, lockedTop sec.perm sec.hi]

theorem configs_lt (b : SectionBounds) (i : Fin 8) : b.configs i < 2 ^ 8 := by
  cases hu : b.uartMapped <;> revert i <;> simp only [SectionBounds.configs, hu] <;> decide

theorem lowEntries_boot {P : Platform} {p : Pmp} (h : SameLocked (bootPmp P) p) :
    lowEntries p = (kernelSections P.sections).flatMap Section.pair ++
      if P.sections.uartMapped then [] else [lowerBound 0, lowerBound 0] := by
  have hentry : ∀ i : Fin 8, (⟨cfgByte p.cfg0 i.val, p.addr ⟨i.val, low_lt i⟩⟩ : Entry) =
      ⟨P.sections.configs i, P.sections.addrs i >>> 2⟩ := by
    intro i
    have haddr : p.addr ⟨i.val, low_lt i⟩ = P.sections.addrs i >>> 2 := by
      rw [h.2 _ i.isLt]
      simp [bootPmp, Pmp.initPmp]
    have hcfg : p.cfg0 = packPmpcfg P.sections.configs := h.1
    rw [haddr, hcfg, packPmpcfg_byte (configs_lt P.sections)]
  rw [lowEntries, funext hentry]
  cases hu : P.sections.uartMapped <;>
    simp [List.ofFn_succ, kernelSections, Section.pair, lowerBound, lockedTop,
      SectionBounds.configs, SectionBounds.addrs, hu, permToCfg, Permission.RX, Permission.R,
      Permission.RW, pmpTor, pmpL, pmpR, pmpW, pmpX]

theorem lockedTop_mode (perm : Permission) (a : ℕ) : (lockedTop perm a).cfg / 8 % 4 = 1 := by
  obtain ⟨r, w, x⟩ := perm
  revert r w x
  simp only [lockedTop]
  decide

theorem lockedTop_bit (perm : Permission) (a : ℕ) (access : Access) :
    (lockedTop perm a).cfg.testBit (accessBit access) = access.matches perm := by
  obtain ⟨r, w, x⟩ := perm
  simp only [lockedTop]
  cases access <;> revert r w x <;> decide

theorem lowerBound_matches (x previous a : ℕ) : (lowerBound x).matches previous a = false := by
  simp [Entry.matches, lowerBound]

theorem lockedTop_matches (sec : Section) (a : ℕ) :
    (lockedTop sec.perm sec.hi).matches (lowerBound sec.lo).addr a = sec.holds a := by
  simp only [Entry.matches, lockedTop_mode]
  rfl

/-- The first section that holds the address decides. -/
theorem firstMatch_sections (sections : List Section) {rest : List Entry}
    (hoff : ∀ e ∈ rest, e.cfg / 8 % 4 = 0) (previous a : ℕ) :
    firstMatch a previous (sections.flatMap Section.pair ++ rest) =
      (sections.find? (·.holds a)).map fun sec => lockedTop sec.perm sec.hi := by
  induction sections generalizing previous with
  | nil => exact firstMatch_off hoff
  | cons sec sections ih =>
    have hlow : ¬ (lowerBound sec.lo).matches previous a = true := by
      simp [lowerBound_matches]
    rw [List.flatMap_cons, List.append_assoc, Section.pair, List.cons_append, List.cons_append,
      List.nil_append, firstMatch, if_neg hlow, firstMatch, lockedTop_matches, List.find?_cons]
    cases hholds : sec.holds a with
    | true => simp
    | false =>
      simp only [Bool.false_eq_true, if_false]
      exact ih _

theorem firstMatch_low {P : Platform} {p : Pmp} (h : SameLocked (bootPmp P) p) (a : ℕ) :
    firstMatch a 0 (lowEntries p) =
      (sectionAt P a).map fun sec => lockedTop sec.perm sec.hi := by
  rw [lowEntries_boot h]
  apply firstMatch_sections
  intro e he
  split at he
  · cases he
  · simp only [List.mem_cons, List.not_mem_nil, or_false, or_self] at he
    rw [he]
    rfl

/-! ## Profiles of a manifest -/

theorem hardwareExact_built {P : Platform} {m : Manifest} (hm : Accepted m)
    (hprofiles : ProfilesOf P m)
    (hbelow : ∀ t ∈ m.tasks, ∀ r ∈ t.regions, r.base + r.size ≤ 2 ^ 56) (i : TaskIndex) :
    ∀ r ∈ (P.pmpProfiles i).activeRegions, HardwareExact r := by
  rw [hprofiles]
  exact hardwareExact_slot hm hbelow i

theorem sipahiToml_namesSilent : ProfileNamesSilent sipahiToml := by decide +kernel

theorem reference_profilesFrom : ProfilesFrom referencePlatform sipahiToml := by
  refine ⟨_, compileProfiles_eq (accepted_of_validateAll sipahiToml_accepted)
    sipahiToml_namesSilent, ?_⟩
  decide +kernel

/-! ## What a task can touch -/

/-- The regions of a task's profile, or its stack. -/
def regionsOf (P : Platform) (s : Sys) (i : TaskIndex) : List Region :=
  if (s.tasks i).isSntmNative then (P.pmpProfiles i).activeRegions
  else [stackRegion (P.taskStackBase i) (s.tasks i).pmpAddrNapot]

/-- Inside the kernel's sections their entries decide, elsewhere the regions of the task. -/
def userGrants (P : Platform) (s : Sys) (access : Access) (a : ℕ) : Bool :=
  match sectionAt P a with
  | some sec => access.matches sec.perm
  | none => regionsAllow a (a + 1) access (regionsOf P s s.currentTask)

theorem dynamicEntries_exact {profile : PmpProfile}
    (h : ∀ r ∈ profile.activeRegions, HardwareExact r) :
    profile.dynamicEntries = profile.activeRegions.flatMap Region.entries := by
  apply List.take_of_length_le
  have hone : ∀ r ∈ profile.activeRegions, r.entries.length = 1 := by
    intro r hr
    obtain ⟨addr, hentries, -⟩ := entries_napot (h r hr)
    rw [hentries]
    rfl
  rw [List.length_flatMap, List.map_congr_left hone, List.map_const', List.sum_replicate_nat]
  have hsix := profile.length_le
  simp only [maxPmpEntries, pmpDynamicStartEntry]
  omega

theorem current_alive_legacy {P : Platform} {s : Sys} (h : Reachable (kernel P) anyStep s)
    (hlegacy : s.current.isSntmNative = false) :
    HardwareExact (stackRegion (P.taskStackBase s.currentTask) s.current.pmpAddrNapot) := by
  have hstack : LegacyStack P s.currentTask s.current :=
    configured_reachable (fun _ _ => Iff.rfl) (fun _ _ hf => hf.legacyStack) h s.currentTask
      (reachable_taskInv h).currentAlive
  obtain ⟨hnapot, -⟩ := hstack hlegacy
  refine ⟨_, _, rfl, ?_, P.taskStack_below s.currentTask⟩
  rw [hnapot]
  exact napotRange_encode (k := 13) (by decide) (by decide) (P.taskStack_aligned s.currentTask)

/-- The dynamic entries are those of the current task and nothing else. -/
theorem dynEntries_current {P : Platform} {s : Sys} (h : Reachable (kernel P) anyStep s)
    (hexact : ∀ i, ∀ r ∈ (P.pmpProfiles i).activeRegions, HardwareExact r) :
    (∀ r ∈ regionsOf P s s.currentTask, HardwareExact r) ∧
    ∃ unused, dynEntries s.pmp = ((regionsOf P s s.currentTask).flatMap Region.entries).map toEntry ++
      List.replicate unused (toEntry (0, 0)) := by
  obtain ⟨p, reason, -, hload⟩ := (resident_reachable h).loaded
  have hid := ((reachable_taskInv h).created _ (reachable_taskInv h).currentAlive).2
  rcases loadTaskPmp_ok hload with ⟨hnative, profile, hprofile, hp⟩ | ⟨hlegacy, hp⟩
  · have hlt : s.current.id < maxTasks := by
      rw [Sys.current, hid]
      exact s.currentTask.isLt
    have hslot : (⟨s.current.id, hlt⟩ : TaskIndex) = s.currentTask := Fin.ext hid
    rw [Platform.getPmpProfile, dif_pos hlt, hslot] at hprofile
    obtain rfl := Option.some.inj hprofile
    have hregions : regionsOf P s s.currentTask = (P.pmpProfiles s.currentTask).activeRegions :=
      if_pos hnative
    rw [hregions, hp, dynEntries_reload, dynamicEntries_exact (hexact _)]
    exact ⟨hexact _, _, rfl⟩
  · have hregions : regionsOf P s s.currentTask =
        [stackRegion (P.taskStackBase s.currentTask) s.current.pmpAddrNapot] := by
      have hno : ¬ (s.tasks s.currentTask).isSntmNative = true := by
        simpa [Sys.current] using hlegacy
      rw [regionsOf, if_neg hno]
      rfl
    rw [hregions, hp]
    refine ⟨?_, 7, dynEntries_napot p (P.taskStackBase s.currentTask) _⟩
    simpa using current_alive_legacy h hlegacy

theorem permitted_exact {P : Platform} {s : Sys} (h : Reachable (kernel P) anyStep s)
    (hexact : ∀ i, ∀ r ∈ (P.pmpProfiles i).activeRegions, HardwareExact r) (access : Access)
    (a : ℕ) : permitted s.pmp access a = userGrants P s access a := by
  obtain ⟨hall, unused, hdyn⟩ := dynEntries_current h hexact
  have hlow := firstMatch_low (resident_reachable h).locked a
  rw [userGrants]
  cases hsec : sectionAt P a with
  | some sec =>
    rw [hsec, Option.map_some] at hlow
    rw [permitted, userAllows, firstMatch_append_some (dynEntries s.pmp) hlow]
    exact lockedTop_bit sec.perm sec.hi access
  | none =>
    rw [hsec, Option.map_none] at hlow
    obtain ⟨last, hlast⟩ := permitted_unclaimed hlow access
    rw [hlast, hdyn]
    exact scan_agrees hall unused a last access

/-- Outside the kernel's sections the regions of the current task decide. -/
theorem permitted_outside {P : Platform} {s : Sys} (h : Reachable (kernel P) anyStep s)
    (hexact : ∀ i, ∀ r ∈ (P.pmpProfiles i).activeRegions, HardwareExact r) {a : ℕ}
    (hout : sectionAt P a = none) (access : Access) :
    permitted s.pmp access a = regionsAllow a (a + 1) access (regionsOf P s s.currentTask) := by
  rw [permitted_exact h hexact, userGrants, hout]

/-- At every return to U-mode the integrity check would pass, the locked registers are as boot left
them, and every access of one byte is granted as `userGrants` says. -/
theorem user_access_exact {P : Platform} {s : Sys} (h : Reachable (kernel P) anyStep s)
    (hexact : ∀ i, ∀ r ∈ (P.pmpProfiles i).activeRegions, HardwareExact r) :
    s.pmp.verifyPmpIntegrity = true ∧ SameLocked (bootPmp P) s.pmp ∧
      ∀ access a, permitted s.pmp access a = userGrants P s access a :=
  ⟨verifyPmpIntegrity_of_inSync (resident_reachable h).inSync, (resident_reachable h).locked,
    permitted_exact h hexact⟩

/-- The first task of the reference boot is a legacy one that may not write its own code. -/
theorem user_access_at_boot : ∃ s, Reachable (kernel referencePlatform) anyStep s ∧
    s.pmp.verifyPmpIntegrity = true ∧ permitted s.pmp .write 0x80001000 = false ∧
    permitted s.pmp .execute 0x80001000 = true := by
  obtain ⟨s, hs, -⟩ := endsWith_iff.mp (show endsWith (scenario bootInit []) (fun _ => true) = true
    by decide +kernel)
  obtain ⟨hsync, -, hgrants⟩ := user_access_exact (scenario_reachable hs)
    (hardwareExact_built (accepted_of_validateAll sipahiToml_accepted)
      (reference_profilesFrom.profilesOf (accepted_of_validateAll sipahiToml_accepted)
        sipahiToml_namesSilent) (by decide))
  have hsec : sectionAt referencePlatform 0x80001000 = some ⟨0x80000000, 0x80008000, .RX⟩ := rfl
  refine ⟨s, scenario_reachable hs, hsync, ?_, ?_⟩
  · rw [hgrants, userGrants, hsec]
    rfl
  · rw [hgrants, userGrants, hsec]
    rfl

/-! ## From the manifest to the hart -/

/-- The manifest lets a task with this id make the access at the address. -/
def ManifestGrants (m : Manifest) (taskId : ℕ) (access : Access) (a : ℕ) : Prop :=
  ∃ t ∈ m.tasks, t.taskId = taskId ∧
    ∃ r ∈ t.regions, r.base ≤ a ∧ a < r.base + r.size ∧ access.matches (grantedPerm r.perm) = true

/-- Regions that do not meet: any one that holds the byte is the one that decides. -/
theorem regionsAllow_apart {regions : List Region} (hexact : ∀ r ∈ regions, HardwareExact r)
    (hapart : regions.Pairwise fun r q => r.base + r.size ≤ q.base ∨ q.base + q.size ≤ r.base)
    (access : Access) (a : ℕ) : regionsAllow a (a + 1) access regions = true ↔
      ∃ r ∈ regions, r.base ≤ a ∧ a < r.base + r.size ∧ access.matches r.perm = true := by
  have hfits : ∀ r ∈ regions, r.base + r.size ≤ usizeMax := fun r hr =>
    (checkedAdd_some (hexact r hr).checkedAdd_eq.1).2
  have hsymm : Std.Symm fun r q : Region => r.base + r.size ≤ q.base ∨ q.base + q.size ≤ r.base :=
    ⟨fun _ _ h => h.symm⟩
  constructor
  · intro h
    obtain ⟨r, hr, -, hbase, hend, hperm⟩ := regionsAllow_region h
    exact ⟨r, hr, hbase, hend, hperm⟩
  · rintro ⟨q, hq, hbase, hlt, hperm⟩
    have hsome : (decidingRegion regions a (a + 1)).isSome := decidingRegion_isSome hq ⟨hbase, hlt⟩
    obtain ⟨r, hdecides⟩ := Option.isSome_iff_exists.mp hsome
    obtain ⟨hr, hrbase, hrend⟩ := decidingRegion_holds hdecides
      (hfits r (List.mem_of_find?_eq_some hdecides))
    have hsame : r = q := by
      by_contra hne
      have := hapart.forall hr hq hne
      omega
    exact regionsAllow_iff.mpr ⟨r, hdecides, hfits r hr, hsame ▸ hperm⟩

theorem regions_apart {m : Manifest} (hm : Accepted m) {t : TaskEntry} (ht : t ∈ m.tasks) :
    (t.regions.map compiledRegion).Pairwise fun r q =>
      r.base + r.size ≤ q.base ∨ q.base + q.size ≤ r.base := by
  apply List.pairwise_map.mpr
  exact (List.pairwise_flatMap.mp (Accepted.apart hm)).1 t ht

/-- The slot of a task has the regions of the task, every other slot is empty. -/
theorem profile_regions {P : Platform} {m : Manifest} (hm : Accepted m) (hprofiles : ProfilesOf P m)
    (i : TaskIndex) :
    (∃ t ∈ m.tasks, t.taskId = i.val ∧
      (P.pmpProfiles i).activeRegions = t.regions.map compiledRegion) ∨
    (∀ t ∈ m.tasks, t.taskId ≠ i.val) ∧ (P.pmpProfiles i).activeRegions = [] := by
  by_cases hslot : ∃ t ∈ m.tasks, t.taskId = i.val
  · obtain ⟨t, ht, hid⟩ := hslot
    exact .inl ⟨t, ht, hid, hprofiles.of_mem hm ht hid.symm⟩
  · have hnone : ∀ t ∈ m.tasks, t.taskId ≠ i.val := fun t ht hid => hslot ⟨t, ht, hid⟩
    exact .inr ⟨hnone, (hprofiles i).trans (slotProfile_empty hnone)⟩

/-- The profile of a slot grants what the manifest does. -/
theorem profileGrants_iff {P : Platform} {m : Manifest} (hm : Accepted m)
    (hprofiles : ProfilesOf P m)
    (hbelow : ∀ t ∈ m.tasks, ∀ r ∈ t.regions, r.base + r.size ≤ 2 ^ 56) (i : TaskIndex)
    (access : Access) (a : ℕ) :
    regionsAllow a (a + 1) access (P.pmpProfiles i).activeRegions = true ↔
      ManifestGrants m i.val access a := by
  have hexact := hardwareExact_built hm hprofiles hbelow i
  rcases profile_regions hm hprofiles i with ⟨t, ht, hid, hregions⟩ | ⟨hnone, hregions⟩
  · rw [regionsAllow_apart hexact (by rw [hregions]; exact regions_apart hm ht), hregions]
    constructor
    · rintro ⟨q, hq, hholds⟩
      obtain ⟨r, hr, rfl⟩ := List.mem_map.mp hq
      exact ⟨t, ht, hid, r, hr, hholds⟩
    · rintro ⟨u, hu, huid, r, hr, hholds⟩
      obtain rfl := List.inj_on_of_nodup_map hm.taskIds hu ht (huid.trans hid.symm)
      exact ⟨compiledRegion r, List.mem_map_of_mem hr, hholds⟩
  · rw [hregions]
    simp only [regionsAllow, Bool.false_eq_true, false_iff]
    rintro ⟨t, ht, hid, -⟩
    exact hnone t ht hid

/-- Regions of two tasks do not meet. -/
theorem tasks_apart {m : Manifest} (hm : Accepted m) {t u : TaskEntry} (ht : t ∈ m.tasks)
    (hu : u ∈ m.tasks) (hne : t ≠ u) : ∀ r ∈ t.regions, ∀ q ∈ u.regions,
      r.base + r.size ≤ q.base ∨ q.base + q.size ≤ r.base := by
  have hsymm : Std.Symm fun x y : TaskEntry => ∀ rx ∈ x.regions, ∀ ry ∈ y.regions,
      rx.base + rx.size ≤ ry.base ∨ ry.base + ry.size ≤ rx.base :=
    ⟨fun x y hxy rx hrx ry hry => (hxy ry hry rx hrx).symm⟩
  exact (List.pairwise_flatMap.mp (Accepted.apart hm)).2.forall ht hu hne

/-- Two tasks of a manifest share no byte. -/
theorem grants_one_task {m : Manifest} (hm : Accepted m) {i j : ℕ} {access : Access} {a : ℕ}
    (h : ManifestGrants m i access a) {t : TaskEntry} (ht : t ∈ m.tasks) (hid : t.taskId = j)
    {r : RegionEntry} (hr : r ∈ t.regions) (hbase : r.base ≤ a) (hlt : a < r.base + r.size) :
    i = j := by
  obtain ⟨u, hu, huid, q, hq, hqbase, hqlt, -⟩ := h
  by_contra hne
  have htu : t ≠ u := by
    rintro rfl
    exact hne (huid.symm.trans hid)
  have := tasks_apart hm ht hu htu r hr q hq
  omega

/-- The memory map of the manifest reaches the hart: whenever a native task executes, and no task
has stored into the kernel's data, an access outside the kernel's sections is granted if and only
if the manifest gives it to that task, and so no byte of another task is within its reach. -/
theorem manifest_access_exact {P : Platform} {m : Manifest} {host : Option Host} {s : Sys}
    (hok : validateAll m host = .ok ()) (hnames : ProfileNamesSilent m)
    (hbelow : ∀ t ∈ m.tasks, ∀ r ∈ t.regions, r.base + r.size ≤ 2 ^ 56)
    (hbuilt : ProfilesFrom P m) (h : Reachable (kernel P) (StoresPermitted P) s)
    (hnative : s.current.isSntmNative = true) {a : ℕ} (hout : sectionAt P a = none) :
    (∀ access, permitted s.pmp access a = true ↔ ManifestGrants m s.currentTask.val access a) ∧
      ∀ t ∈ m.tasks, t.taskId ≠ s.currentTask.val → ∀ r ∈ t.regions, r.base ≤ a →
        a < r.base + r.size → ∀ access, permitted s.pmp access a = false := by
  have hm := accepted_of_validateAll hok
  have hprofiles := hbuilt.profilesOf hm hnames
  have hreached : Reachable (kernel P) anyStep s := h.weaken fun _ _ _ => trivial
  have hexact : ∀ access, permitted s.pmp access a = true ↔
      ManifestGrants m s.currentTask.val access a := by
    intro access
    have hregions : regionsOf P s s.currentTask = (P.pmpProfiles s.currentTask).activeRegions :=
      if_pos hnative
    rw [permitted_outside hreached (hardwareExact_built hm hprofiles hbelow) hout, hregions]
    exact profileGrants_iff hm hprofiles hbelow s.currentTask access a
  refine ⟨hexact, ?_⟩
  intro t ht hother r hr hbase hlt access
  rw [← Bool.not_eq_true, hexact]
  intro hgranted
  exact hother (grants_one_task hm hgranted ht rfl hr hbase hlt).symm

/-- `task_hello` alone: it executes and cannot read the data of `task_world`. -/
theorem manifest_access_of_taskHello : ∃ s,
    Reachable (kernel referencePlatform) (StoresPermitted referencePlatform) s ∧
    s.current.isSntmNative = true ∧ permitted s.pmp .read 0x80705000 = false := by
  obtain ⟨s, hs, ht⟩ := endsWith_iff.mp (show endsWith
    (scenario [nativeTask 2 6 3 500000 50, nativeTask 3 7 3 500000 50] [])
    (fun s => decide (s.current.isSntmNative = true ∧ s.currentTask = 2)) = true by decide +kernel)
  obtain ⟨hnative, hcur⟩ := of_decide_eq_true ht
  obtain ⟨-, hother⟩ := manifest_access_exact sipahiToml_accepted sipahiToml_namesSilent
    (by decide) reference_profilesFrom (booted_reachable hs) hnative (a := 0x80705000) rfl
  have hworld : ∃ t ∈ sipahiToml.tasks, t.taskId ≠ (2 : TaskIndex).val ∧ ∃ r ∈ t.regions,
      r.base ≤ 0x80705000 ∧ 0x80705000 < r.base + r.size := by decide
  obtain ⟨t, ht, hid, r, hr, hbase, hlt⟩ := hworld
  rw [← hcur] at hid
  exact ⟨s, booted_reachable hs, hnative, hother t ht hid r hr hbase hlt .read⟩

end KernelSpatial
