import Sipahi.KernelSpatial
import Sipahi.KernelRestart
import Sipahi.KernelRunningTask

/-!
# What can stop the kernel

A trap that does not return to U-mode halts the hart. The policy has one way to do that, the
isolation of a second task; the others are a cause that no task can be blamed for, a native task
without a PMP profile, and the overflow of the clock. The halts that guard the kernel against itself
are never taken.
-/
namespace KernelHalts

open KernelTypes KernelPolicy KernelBlackbox KernelCapability KernelState KernelTrapFrame
open KernelScheduler KernelSyscall KernelTrap KernelHandlers KernelEvolution KernelSelection
open KernelBoot KernelTaskInvariants KernelResume KernelRestart KernelRunningTask KernelPmpReload
open KernelStatics KernelSpatial KernelReference RiscvHart GuardedExecution

/-- The current task is to be isolated, and another one is already. -/
def SecondIsolation (s : Sys) (halt : Halt) : Prop :=
  halt = .shutdown ∧ ∃ j, j ≠ s.currentTask ∧ (s.tasks j).state = .isolated

/-- The manifest promised a profile that the build does not have. -/
def ManifestDrift (P : Platform) (s : Sys) (halt : Halt) : Prop :=
  halt = .haltSystem "[SCHED] is_sntm_native task with EMPTY PMP_PROFILES — manifest drift" ∧
    ∃ i, s.Created i ∧ (s.tasks i).isSntmNative = true ∧ (P.pmpProfiles i).activeRegions = []

/-- The exceptions that `trap_handler` does not put down to the task. -/
def IsFatal (mcause : ℕ) : Prop := IsFault mcause ∧ mcause ∉ [0, 2, 3, 4, 5, 6, 7]

instance (mcause : ℕ) : Decidable (IsFatal mcause) := inferInstanceAs (Decidable (_ ∧ _))

/-- Everything that can stop a trap from returning to U-mode. -/
inductive HaltCause (P : Platform) (s : Sys) (e : TrapEvent) : Halt → Prop where
  | secondIsolation {halt} : SecondIsolation s halt → HaltCause P s e halt
  | manifestDrift {halt} : ManifestDrift P s halt → HaltCause P s e halt
  | fatalTrap {reason} : IsFatal e.mcause → HaltCause P s e (.haltSystem reason)
  | clockOverflow : IsTimer e.mcause → clockOverflows s e.mtime = true → HaltCause P s e .panic

/-! ## The policy -/

/-- Two counted tasks are different, so one of them is not `id`. -/
theorem two_isolated {s : Sys} {id : TaskIndex} (h : 2 ≤ isolatedCount s) :
    ∃ j, j ≠ id ∧ (s.tasks j).state = .isolated := by
  by_contra hnone
  have hsub : ((List.finRange maxTasks).filter fun i =>
      decide (i.val < s.taskCount) && (s.tasks i).state == .isolated) ⊆ [id] := by
    intro j hj
    by_contra hne
    simp only [List.mem_filter, Bool.and_eq_true, decide_eq_true_eq, beq_iff_eq] at hj
    exact hnone ⟨j, by simpa using hne, hj.2.2⟩
  have hlen := (((List.nodup_finRange maxTasks).filter _).subperm hsub).length_le
  rw [isolatedCount] at h
  simp only [List.length_singleton] at hlen
  omega

theorem isolateTask_error {s : Sys} {halt : Halt}
    (h : isolateTask s s.currentTask = .error halt) : SecondIsolation s halt := by
  simp only [isolateTask] at h
  split at h
  · rename_i hcount
    obtain ⟨j, hne, hiso⟩ : ∃ j, j ≠ s.currentTask ∧ _ := two_isolated hcount
    rw [(markIsolated_frame s s.currentTask).others j hne] at hiso
    refine ⟨?_, j, hne, hiso⟩
    simp only [consultPolicy, applySystemAction, PolicyEvent.code, applyPolicy_fst, decideAction,
      if_true, Except.error.injEq] at h
    exact h.symm
  · cases h

theorem secondIsolation_statesKept {s q : Sys} {halt : Halt} (hq : StatesKept s q)
    (h : SecondIsolation q halt) : SecondIsolation s halt := by
  obtain ⟨hhalt, j, hne, hiso⟩ := h
  rw [hq.currentTask] at hne
  rw [hq.states] at hiso
  exact ⟨hhalt, j, hne, hiso⟩

/-- The events that the policy answers with a shutdown are those of the kernel itself. -/
theorem answer_shutdown {s : Sys} {taskId dal : ℕ} {event : PolicyEvent}
    (h : answer s taskId event dal = .shutdown) :
    event = .pmpIntegrityFail ∨ event = .multiModuleCrash := by
  cases event with
  | pmpIntegrityFail => exact .inl rfl
  | multiModuleCrash => exact .inr rfl
  | deadlineMiss =>
    simp only [answer, PolicyEvent.code, decideAction] at h
    split at h <;> cases h
  | capViolation | iopmpViolation => cases h
  | budgetExhausted | stackOverflow | taskFault | watchdogTimeout =>
    simp only [answer, PolicyEvent.code, decideAction] at h
    split at h <;> cases h

theorem applyAction_total {P : Platform} {s : Sys} {id : TaskIndex} {mode : FailureMode}
    (hi : mode ≠ .isolate) (hs : mode ≠ .shutdown) : ∃ u, applyAction P s id mode = .ok u := by
  cases mode with
  | restart | failover | alert => exact ⟨_, rfl⟩
  | degrade =>
    simp only [applyAction]
    split <;> exact ⟨_, rfl⟩
  | isolate => exact absurd rfl hi
  | shutdown => exact absurd rfl hs

/-- A watchdog timeout or an exhausted budget is never answered with an isolation. -/
theorem respond_total {P : Platform} {s : Sys} {id : TaskIndex} {taskId dal : ℕ}
    {event : PolicyEvent} (h : event = .watchdogTimeout ∨ event = .budgetExhausted) :
    ∃ u, respond P s id taskId event dal = .ok u := by
  simp only [respond, consultPolicy, applyPolicy_fst]
  refine applyAction_total ?_ ?_
  all_goals
    rcases h with rfl | rfl
    all_goals
      simp only [PolicyEvent.code, decideAction]
      split <;> simp

/-- Every event that is put down to the current task halts in one way only. -/
theorem respond_error {P : Platform} {s : Sys} {taskId dal : ℕ} {event : PolicyEvent}
    {halt : Halt} (hevent : event ≠ .pmpIntegrityFail ∧ event ≠ .multiModuleCrash)
    (h : respond P s s.currentTask taskId event dal = .error halt) : SecondIsolation s halt := by
  let q : Sys := { s with restartCounts := (applyPolicy s.restartCounts taskId event dal).2 }
  have hq : applyAction P q q.currentTask (answer s taskId event dal) = .error halt := by
    simp only [respond, consultPolicy, applyPolicy_fst] at h
    exact h
  by_cases hiso : answer s taskId event dal = .isolate
  · rw [hiso] at hq
    have hisolate : isolateTask (q.log .policyIsolate q.current.id []) q.currentTask =
        .error halt := hq
    have hsecond := isolateTask_error hisolate
    exact secondIsolation_statesKept (statesKept_of_tasks rfl rfl) hsecond
  · have hshut : answer s taskId event dal ≠ .shutdown := by
      intro hs
      rcases answer_shutdown hs with rfl | rfl
      · exact hevent.1 rfl
      · exact hevent.2 rfl
    obtain ⟨u, hu⟩ := applyAction_total hiso hshut
    rw [hu] at hq
    cases hq

theorem handleTaskFault_error {P : Platform} {s : Sys} {halt : Halt}
    (h : handleTaskFault P s = .error halt) : SecondIsolation s halt := by
  rw [handleTaskFault] at h
  split at h
  · exact respond_error (by simp) h
  · cases h

theorem recordCapResult_error {P : Platform} {s : Sys} {ok : Bool} {halt : Halt}
    (h : recordCapResult P s ok = .error halt) : SecondIsolation s halt := by
  simp only [recordCapResult] at h
  split at h
  · cases h
  · split at h
    · have hsecond := respond_error (by simp) h
      exact secondIsolation_statesKept (statesKept_of_tasks rfl rfl) hsecond
    · cases h

theorem sysCapInvoke_error {P : Platform} {s : Sys} {cap resource action : ℕ} {halt : Halt}
    (h : sysCapInvoke P s cap resource action = .error halt) : SecondIsolation s halt := by
  rw [sysCapInvoke] at h
  split at h
  · cases h
  · split at h
    · cases h
    · rcases bind_eq_error.mp h with h | ⟨u, -, h⟩
      · exact recordCapResult_error h
      · cases h

/-! ## The phases of a tick -/

theorem deadlinePhase_error {P : Platform} {s : Sys} {mtime : ℕ} {halt : Halt}
    (h : deadlinePhase P s mtime = .error halt) :
    SecondIsolation s halt ∨ clockOverflows s mtime = true ∧ halt = .panic := by
  rw [deadlinePhase] at h
  split at h
  · rename_i hclock
    cases h
    exact .inr ⟨hclock, rfl⟩
  · simp only [answerDeadline] at h
    split at h
    · have hsecond := respond_error (by simp) h
      exact .inl (secondIsolation_statesKept (statesKept_of_tasks rfl rfl) hsecond)
    · cases h

theorem watchdogTask_total (P : Platform) (s : Sys) (w : TaskIndex) :
    ∃ u, watchdogTask P s w = .ok u := by
  simp only [watchdogTask]
  split
  · split
    · obtain ⟨u, hu⟩ := respond_total (P := P)
        (s := (s.setTask w (watchdogCount (s.tasks w))).log .watchdogTimeout (s.tasks w).id [])
        (.inl rfl)
      exact ⟨_, bind_eq_ok.mpr ⟨u, hu, rfl⟩⟩
    · exact ⟨_, rfl⟩
  · exact ⟨_, rfl⟩

theorem budgetPhase_total (P : Platform) (s : Sys) (old : TaskIndex) :
    ∃ u, budgetPhase P s old = .ok u := by
  simp only [budgetPhase]
  split
  · split
    · exact respond_total (.inr rfl)
    · exact ⟨_, rfl⟩
  · exact ⟨_, rfl⟩

/-- With the PMP registers in step with their shadows, no phase of a tick halts. -/
theorem tickPhases_total {P : Platform} {s : Sys} (hsync : InSync s.pmp) :
    ∃ u, tickPhases P s = .ok u := by
  have hverify := verifyPmpIntegrity_of_inSync hsync
  have hpmp : pmpIntegrityPhase { s with blackbox := s.blackbox.advanceTick } =
      .ok { s with blackbox := s.blackbox.advanceTick } := by
    simp [pmpIntegrityPhase, hverify]
  obtain ⟨w, hw⟩ := run_total (M := watchdogLoop P) (fun q i => watchdogTask_total P q i)
    (tryRecoverFromDegrade (periodPhase { s with blackbox := s.blackbox.advanceTick }))
    (List.finRange maxTasks)
  obtain ⟨u, hu⟩ := budgetPhase_total P w s.currentTask
  exact ⟨u, bind_eq_ok.mpr ⟨_, bind_eq_ok.mpr ⟨_, hpmp, rfl⟩, bind_eq_ok.mpr ⟨w, hw, hu⟩⟩⟩

theorem watchdogKick_total (P : Platform) (s : Sys) : ∃ u, watchdogKick P s = .ok u := by
  rw [watchdogKick]
  split
  · have hcheck : ∃ q, checkKickWindow P s = .ok q := by
      simp only [checkKickWindow]
      split
      · exact respond_total (.inl rfl)
      · exact ⟨_, rfl⟩
    obtain ⟨q, hq⟩ := hcheck
    exact ⟨_, bind_eq_ok.mpr ⟨q, hq, rfl⟩⟩
  · exact ⟨_, rfl⟩

/-! ## The switch -/

/-- The context leads back into the handler or to `task_trampoline`, and then to U-mode. -/
structure Parkable (P : Platform) (h : Hart Slot) (i : TaskIndex) : Prop where
  ra : h.mem (.context i 0) = P.taskTrampoline ∨ h.mem (.context i 0) = P.switchReturn
  mstatus : h.mem (.context i 120) = mstatusUser

theorem Parkable.congr {P : Platform} {h k : Hart Slot} {i : TaskIndex}
    (hk : ∀ offset, k.mem (.context i offset) = h.mem (.context i offset))
    (hp : Parkable P h i) : Parkable P k i :=
  ⟨by rw [hk]; exact hp.ra, by rw [hk]; exact hp.mstatus⟩

theorem loadTaskPmp_error {P : Platform} {p : KernelPmp.Pmp} {t : Task} {reason : String}
    {halt : Halt} (h : loadTaskPmp P p t reason = .error halt) (hid : t.id < maxTasks) :
    halt = .haltSystem reason ∧ t.isSntmNative = true ∧
      (P.pmpProfiles ⟨t.id, hid⟩).activeRegions = [] := by
  rw [loadTaskPmp] at h
  simp only [Platform.getPmpProfile, hid, dif_pos] at h
  split at h
  · rename_i hnative
    split at h
    · rename_i hempty
      exact ⟨(Except.error.inj h).symm, hnative, by simpa using hempty⟩
    · cases h
  · cases h

/-- The program counter after the loads comes from a context that was stored before. -/
theorem switchContext_parkable {P : Platform} {h : Hart Slot} {old next : TaskIndex}
    (hctx : next ≠ old → Parkable P h next) :
    (switchContext P h old next).pc = P.taskTrampoline ∨
      (switchContext P h old next).pc = P.switchReturn := by
  have hsaved := switchContext_saved P h old next
  rw [(switchContext_loaded P h old next).pc]
  by_cases hne : next = old
  · subst hne
    exact .inr hsaved.ra
  · rw [hsaved.contexts next 0 hne]
    exact (hctx hne).ra

theorem select_error {P : Platform} {q : Sys} {halt : Halt} (hi : TaskInv q)
    (hctx : ∀ i, (q.tasks i).state ≠ .dead → i ≠ q.currentTask → Parkable P q.hart i)
    (h : doPrioritySelectAndSwitch P q q.currentTask = .error halt) : ManifestDrift P q halt := by
  rw [doPrioritySelectAndSwitch] at h
  split at h
  · cases h
  · rename_i next htarget
    obtain ⟨-, hsel, -⟩ := switchTarget_some htarget
    have halive := selectable_alive (selectNext_some hsel).1
    obtain ⟨hin, hid⟩ := hi.created next halive
    rw [switchTo] at h
    rcases bind_eq_error.mp h with h | ⟨pmp, -, h⟩
    · have hcfg := handOver_config q.tasks q.currentTask next next
      have hlt : (q.tasks next).id < maxTasks := hid ▸ next.isLt
      rw [loadTaskPmp_config hcfg] at h
      obtain ⟨rfl, hnative, hempty⟩ := loadTaskPmp_error h hlt
      have hslot : (⟨(q.tasks next).id, hlt⟩ : TaskIndex) = next := Fin.ext hid
      rw [hslot] at hempty
      exact ⟨rfl, next, ⟨hin, halive⟩, hnative, hempty⟩
    · have hpc := switchContext_parkable (hctx next halive)
      dsimp only at h
      split at h
      · cases h
      · rename_i htramp
        split at h
        · cases h
        · rename_i hreturn
          exact absurd hpc (by simp [htramp, hreturn])

theorem manifestDrift_evolves {P : Platform} {s q : Sys} {halt : Halt} (he : Evolves s q)
    (h : ManifestDrift P q halt) : ManifestDrift P s halt := by
  obtain ⟨hhalt, i, ⟨hin, halive⟩, hnative, hempty⟩ := h
  rw [he.taskCount] at hin
  rw [Ne, he.dead] at halive
  rw [config_field Task.isSntmNative (fun _ => rfl) (he.config i)] at hnative
  exact ⟨hhalt, i, ⟨hin, halive⟩, hnative, hempty⟩

/-! ## The handler -/

/-- What the handler relies on when it starts. -/
structure Guarded (P : Platform) (u : Sys) : Prop where
  inv : TaskInv u
  inSync : InSync u.pmp
  mstatus : u.hart.csrs .mstatus = mstatusUser
  parked : ∀ i, (u.tasks i).state ≠ .dead → i ≠ u.currentTask → Parkable P u.hart i

section

variable {P : Platform} {u : Sys} {mtime mcause syscallId arg0 arg1 arg2 : ℕ} {halt : Halt}

/-- The halts of a handler, before the trap is looked at. -/
def HandlerHalts (P : Platform) (u : Sys) (mtime mcause : ℕ) (halt : Halt) : Prop :=
  SecondIsolation u halt ∨ ManifestDrift P u halt ∨
    (IsFatal mcause ∧ ∃ reason, halt = .haltSystem reason) ∨
    IsTimer mcause ∧ clockOverflows u mtime = true ∧ halt = .panic

theorem atSelection_error {q : Sys} (hg : Guarded P u)
    (hq : AtSelection P u mtime mcause syscallId q)
    (h : doPrioritySelectAndSwitch P q q.currentTask = .error halt) : ManifestDrift P u halt := by
  have he := atSelection_evolves hg.inv.currentAlive hq
  refine manifestDrift_evolves he (select_error (taskInv_evolves he hg.inv) (fun i hd hne => ?_) h)
  rw [he.currentTask] at hne
  rw [Ne, he.dead] at hd
  exact (hg.parked i hd hne).congr fun offset => he.hart.contexts i offset hne

theorem timerInterrupt_error (hg : Guarded P u) (ht : IsTimer mcause)
    (h : timerInterrupt P u mtime = .error halt) : HandlerHalts P u mtime mcause halt := by
  rw [timerInterrupt] at h
  rcases bind_eq_error.mp h with h | ⟨v, hv, h⟩
  · rcases deadlinePhase_error h with hs | hclock
    · exact .inl hs
    · exact .inr (.inr (.inr ⟨ht, hclock⟩))
  · rcases bind_eq_error.mp h with h | ⟨r, -, h⟩
    · have hve := (deadlinePhase_evolves hg.inv.currentAlive hv).1
      have hvs : InSync v.pmp := by
        rw [(deadlinePhase_statics hv).pmp]
        exact hg.inSync
      rw [scheduleTimerTick] at h
      split at h
      · cases h
      · obtain ⟨q, hq⟩ := tickPhases_total (P := P) hvs
        rw [hq] at h
        have hsel : AtSelection P u mtime mcause 0 q := .inl ⟨ht, v, hv, hq⟩
        have hcur : q.currentTask = v.currentTask :=
          (atSelection_evolves hg.inv.currentAlive hsel).currentTask.trans hve.currentTask.symm
        rw [← hcur] at h
        exact .inr (.inl (atSelection_error hg hsel h))
    · cases h

theorem scheduleYield_error {q : Sys} (hg : Guarded P u)
    (hq : AtSelection P u mtime mcause syscallId q) (h : scheduleYield P q = .error halt) :
    ManifestDrift P u halt := by
  rw [scheduleYield] at h
  split at h
  · cases h
  · exact atSelection_error hg hq h

theorem syscallTable_error (hg : Guarded P u) (he : IsEcall mcause)
    (hid : ¬ syscallCount ≤ syscallId)
    (h : syscallTable P (incrementSyscallCount u) syscallId arg0 arg1 arg2 = .error halt) :
    HandlerHalts P u mtime mcause halt := by
  have hinc := ipcFrame_statesKept (incrementSyscallCount_frame u)
  simp only [syscallTable] at h
  split at h
  · rcases bind_eq_error.mp h with h | ⟨x, -, h⟩
    · exact .inl (secondIsolation_statesKept hinc (sysCapInvoke_error h))
    · cases h
  · cases h
  · cases h
  · obtain ⟨q, hq⟩ := watchdogKick_total P (incrementSyscallCount u)
    rcases bind_eq_error.mp h with h | ⟨q', hq', h⟩
    · rw [hq] at h
      cases h
    · obtain rfl : q = q' := Except.ok.inj (hq.symm.trans hq')
      rcases bind_eq_error.mp h with h | ⟨x, -, h⟩
      · have hsel : AtSelection P u 0 mcause sysYieldId q := .inr (.inl ⟨he, rfl, hq⟩)
        exact .inr (.inl (scheduleYield_error hg hsel h))
      · cases h
  · cases h
  · rw [sysExit] at h
    rcases bind_eq_error.mp h with h | ⟨q, hq, h⟩
    · exact .inl (secondIsolation_statesKept hinc (isolateTask_error h))
    · rw [incrementSyscallCount_currentTask] at hq
      rcases bind_eq_error.mp h with h | ⟨x, -, h⟩
      · have hsel : AtSelection P u 0 mcause sysExitId q := .inr (.inr ⟨he, rfl, hq⟩)
        exact .inr (.inl (scheduleYield_error hg hsel h))
      · cases h
  · simp only [syscallCount, imp_false] at *
    omega

theorem dispatch_error (hg : Guarded P u) (he : IsEcall mcause)
    (h : dispatch P u syscallId arg0 arg1 arg2 = .error halt) : HandlerHalts P u mtime mcause halt := by
  rw [dispatch] at h
  split at h
  · cases h
  · rename_i hid
    rcases bind_eq_error.mp h with h | ⟨x, -, h⟩
    · exact syscallTable_error hg he hid h
    · cases h

theorem accessFault_error (h : accessFaultTrap P u = .error halt) : SecondIsolation u halt := by
  rw [accessFaultTrap] at h
  rcases bind_eq_error.mp h with h | ⟨v, -, h⟩
  · have hlog : StatesKept u (u.log .pmpFail u.currentTask.val []) := statesKept_of_tasks rfl rfl
    rw [respondToAccessFault] at h
    split at h
    · exact secondIsolation_statesKept hlog (respond_error (by simp) h)
    · exact secondIsolation_statesKept hlog (handleTaskFault_error h)
  · cases h

theorem taskFault_error (h : taskFaultTrap P u = .error halt) : SecondIsolation u halt := by
  rw [taskFaultTrap] at h
  rcases bind_eq_error.mp h with h | ⟨v, -, h⟩
  · have hsecond := handleTaskFault_error h
    exact secondIsolation_statesKept (statesKept_of_tasks rfl rfl) hsecond
  · cases h

theorem ecallTrap_error (hg : Guarded P u) (he : IsEcall mcause)
    (h : ecallTrap P u mcause syscallId arg0 arg1 arg2 = .error halt) :
    HandlerHalts P u mtime mcause halt := by
  have hmpp : verifyMppIsUserMode u mcause = .ok () := by
    simp [verifyMppIsUserMode, hg.mstatus, mstatusUser, mppOf]
  rw [ecallTrap] at h
  rcases bind_eq_error.mp h with h | ⟨x, -, h⟩
  · rw [hmpp] at h
    cases h
  · exact dispatch_error hg he h

theorem exceptionTrap_error (hg : Guarded P u) (hint : mcause &&& interruptBit = 0)
    (h : exceptionTrap P u mcause syscallId arg0 arg1 arg2 = .error halt) :
    HandlerHalts P u mtime mcause halt := by
  simp only [exceptionTrap] at h
  split at h
  case h_1 | h_2 => exact ecallTrap_error hg ⟨hint, by simp⟩ h
  case h_3 | h_4 | h_5 | h_6 | h_7 => exact .inl (taskFault_error h)
  case h_8 | h_9 => exact .inl (accessFault_error h)
  case h_17 =>
    simp only [imp_false] at *
    have hfatal : IsFatal mcause := ⟨⟨hint, by omega⟩, by simp; omega⟩
    exact .inr (.inr (.inl ⟨hfatal, _, (Except.error.inj h).symm⟩))
  all_goals
    exact .inr (.inr (.inl ⟨⟨⟨hint, by simp⟩, by simp⟩, _, (Except.error.inj h).symm⟩))

theorem trapHandler_error (hg : Guarded P u)
    (h : trapHandler P u mtime mcause syscallId arg0 arg1 arg2 = .error halt) :
    HandlerHalts P u mtime mcause halt := by
  rw [trapHandler] at h
  split at h
  · rename_i hint
    split at h
    · rename_i h7
      exact timerInterrupt_error hg ⟨hint, h7⟩ h
    · cases h
  · rename_i hint
    exact exceptionTrap_error hg (not_not.mp hint) h

end

/-! ## Every reachable state -/

/-- The current task executes in U-mode with the top of the kernel stack in `mscratch`, and every
other task has a context that `switch_context` can return into. -/
structure Resumable (P : Platform) (s : Sys) : Prop where
  mscratch : s.hart.csrs .mscratch = P.stackTop
  mstatus : s.hart.csrs .mstatus = mstatusUser
  userMode : s.hart.userMode = true
  parked : ∀ i, (s.tasks i).state ≠ .dead → i ≠ s.currentTask → Parkable P s.hart i

section

variable {P : Platform} {s u v w : Sys} {e : TrapEvent}

theorem resumable_initial (h : (kernel P).Initial s) : Resumable P s := by
  obtain ⟨q, best, hs⟩ := initial_started h
  obtain ⟨pmp, rfl⟩ := hs.state
  have hbest := (booted_alive hs.booted (i := best) (by simp [hs.ready])).context 120
  refine ⟨rfl, hbest, ?_, fun i hd hne => ?_⟩
  · have huser : (enterFirstTask P q.hart best).userMode =
        (mppOf (q.hart.mem (.context best 120)) == 0) := rfl
    rw [huser, hbest]
    simp [freshContext, mstatusUser, mppOf]
  · have hne : i ≠ best := hne
    have hfresh := (booted_alive hs.booted (i := i) (by simpa [hne] using hd)).context
    exact ⟨.inl (hfresh 0), hfresh 120⟩

theorem trapEntry_total {h : Hart Slot} (hm : h.csrs .mscratch ≠ 0) : ∃ k, trapEntry h = .ok k := by
  have hsp : (execAll h [.csrrw .sp .mscratch .sp]).regs .sp = h.csrs .mscratch := rfl
  rw [trapEntry]
  dsimp only
  rw [hsp]
  rw [if_neg hm]
  exact ⟨_, rfl⟩

theorem enterHandler_total (hr : Resumable P s) (e : TrapEvent) :
    ∃ u args, enterHandler P s e = .ok (u, args) := by
  have hm : (takeTrap s e).hart.csrs .mscratch = P.stackTop := hr.mscratch
  have hpos := P.stackTop_pos
  obtain ⟨k, hk⟩ := trapEntry_total (h := (takeTrap s e).hart) (by omega)
  exact ⟨_, _, bind_eq_ok.mpr ⟨k, hk, rfl⟩⟩

theorem entered_guarded {args : Reg → ℕ} (hi : TaskInv s) (hsync : InSync s.pmp)
    (hr : Resumable P s) (h : enterHandler P s e = .ok (u, args)) : Guarded P u := by
  have hin := entered_sameKernel h
  have hent := enterHandler_entered h
  obtain ⟨k, -, -, hu⟩ := enterHandler_ok h
  refine ⟨taskInv_sameKernel hin hi, ?_, hent.mstatus, fun i hd hne => ?_⟩
  · rw [hu]
    exact hsync
  · rw [hin.currentTask] at hne
    rw [hin.tasks] at hd
    exact (hr.parked i hd hne).congr fun offset => hent.contexts i offset hne

/-- The stack pointer of the handler is below `mscratch` by one trap frame. -/
theorem entered_sp {args : Reg → ℕ} (h : enterHandler P s e = .ok (u, args)) :
    u.hart.regs .sp = addImm (s.hart.csrs .mscratch) (-272) := by
  obtain ⟨k, hk, -, rfl⟩ := enterHandler_ok h
  exact (trapEntry_entered hk).sp

theorem serves_sp {mtime mcause syscallId arg0 arg1 arg2 : ℕ} {r : Option ℕ}
    (hc : u.current.state ≠ .dead)
    (h : Serves P u mtime mcause syscallId arg0 arg1 arg2 w r) :
    w.hart.regs .sp = u.hart.regs .sp := by
  rcases serves_cases hc h with ⟨he, -, -⟩ | ⟨q, flow, hq, hselect, -⟩
  · rw [he.hart.regs]
  · have hqs := (atSelection_evolves hc hq).hart.regs
    rcases select_cases hselect with ⟨-, rfl, -⟩ | ⟨next, -, hs⟩
    · rw [hqs]
    · rw [switched_hart hs, (switchContext_loaded P q.hart _ next).sp, hqs]

theorem frame_wrap {x : ℕ} (hlow : trapFrameSize ≤ x) (hhigh : x < xlen) :
    addImm (addImm x (-272)) 272 = x := by
  simp only [trapFrameSize, xlen] at hlow hhigh
  simp only [addImm, xlen]
  omega

theorem leaveHandler_mscratch {r : Option ℕ} (hsp : w.hart.regs .sp = addImm P.stackTop (-272)) :
    (leaveHandler P (w, r)).hart.csrs .mscratch = P.stackTop := by
  cases r with
  | none => exact (taskTrampoline_trampolined P w.hart).mscratch
  | some x =>
    have hspill : P.spilled .sp = false := by
      by_contra hs
      have hcallee := P.spilled_calleeSaved .sp (by simpa using hs)
      cases hcallee
    have hepilogue : (handlerEpilogue P w.hart).regs .sp = w.hart.regs .sp := by
      simp [handlerEpilogue, hspill]
    refine (trapExit_left (handlerEpilogue P w.hart) x).mscratch.trans ?_
    rw [hepilogue, hsp]
    exact frame_wrap P.trapFrame_fits P.stackTop_lt

/-- What `mret` finds in `mstatus` after a switch. -/
theorem switched_mstatus {q : Sys} {next : TaskIndex} {flow : Flow} (hr : Resumable P s)
    (he : Entered P s e q.hart) (hs : Switched P q s.currentTask next w flow)
    (halive : (s.tasks next).state ≠ .dead) : w.hart.csrs .mstatus = mstatusUser := by
  have hl := switchContext_loaded P q.hart s.currentTask next
  rw [← switched_hart hs] at hl
  rw [hl.mstatus]
  by_cases hne : next = s.currentTask
  · subst hne
    rw [switched_hart hs, (switchContext_saved P q.hart _ _).mstatus]
    exact he.mstatus
  · rw [switched_context he hs hne]
    exact (hr.parked next halive hne).mstatus

theorem leaveHandler_userMode {r : Option ℕ} (hm : w.hart.csrs .mstatus = mstatusUser) :
    (leaveHandler P (w, r)).hart.userMode = true := by
  cases r with
  | none =>
    refine (taskTrampoline_trampolined P w.hart).userMode.trans ?_
    rw [hm]
    rfl
  | some x =>
    have hcsrs : (handlerEpilogue P w.hart).csrs .mstatus = mstatusUser := hm
    refine (trapExit_left (handlerEpilogue P w.hart) x).userMode.trans ?_
    rw [hcsrs]
    rfl

theorem leaveHandler_mstatus (r : Option ℕ) :
    (leaveHandler P (w, r)).hart.csrs .mstatus = w.hart.csrs .mstatus := by
  cases r with
  | none => rfl
  | some x =>
    simp only [leaveHandler, trapExit]
    split <;> rfl

/-- The way back starts with the privilege of a task in `mstatus`. -/
theorem trap_leaves (hi : TaskInv s) (hr : Resumable P s) (h : trap P s e = .ok v) :
    ∃ w r, v = leaveHandler P (w, r) ∧ w.hart.csrs .mstatus = mstatusUser := by
  cases trap_ends hi h with
  | stays he _ _ => exact ⟨_, _, rfl, he.mstatus⟩
  | @switches q next w flow r _ he _ ht htarget hs _ =>
    have halive := selectable_alive (selectNext_some (switchTarget_some htarget).2.1).1
    rw [Ne, ht.dead] at halive
    exact ⟨_, _, rfl, switched_mstatus hr he hs halive⟩

theorem trap_userMode (hi : TaskInv s) (hr : Resumable P s) (h : trap P s e = .ok v) :
    v.hart.userMode = true := by
  obtain ⟨w, r, rfl, hm⟩ := trap_leaves hi hr h
  exact leaveHandler_userMode hm

/-- The context of the interrupted task is stored when the CPU goes to another one. -/
theorem trap_parkable (hi : TaskInv s) (h : trap P s e = .ok v)
    (hne : s.currentTask ≠ v.currentTask) : Parkable P v.hart s.currentTask := by
  refine ⟨.inr (trap_parks hi h hne.symm).ra, ?_⟩
  cases trap_ends hi h with
  | @stays w _ hcur _ =>
    rw [(leaveHandler_sameKernel P w _).currentTask] at hne
    exact absurd hcur.symm hne
  | switches _ he _ _ _ hs _ =>
    rw [leaveHandler_contexts, switched_hart hs, (switchContext_saved P _ _ _).mstatus]
    exact he.mstatus

theorem resumable_trap (hi : TaskInv s) (hr : Resumable P s) (h : trap P s e = .ok v) :
    Resumable P v := by
  refine ⟨?_, ?_, trap_userMode hi hr h, fun i hd hne => ?_⟩
  · obtain ⟨u, args, w, r, ⟨hu, hserves⟩, rfl⟩ := trap_ok h
    have hui := taskInv_sameKernel (entered_sameKernel hu) hi
    apply leaveHandler_mscratch
    rw [serves_sp hui.currentAlive hserves, entered_sp hu, hr.mscratch]
  · obtain ⟨w, r, rfl, hm⟩ := trap_leaves hi hr h
    exact (leaveHandler_mstatus r).trans hm
  · by_cases hold : i = s.currentTask
    · subst hold
      exact trap_parkable hi h hne
    · rw [Ne, (trap_sameTable hi h).dead] at hd
      exact (hr.parked i hd hold).congr fun offset => trap_contexts hi h hold offset

theorem resumable_reachable {guard : Sys → TrapEvent → Prop} (h : Reachable (kernel P) guard s) :
    Resumable P s :=
  reachable_invariant (fun _ h0 => resumable_initial h0)
    (fun _ _ _ hr hs _ hst => resumable_trap (reachable_taskInv hr) hs hst) h

theorem secondIsolation_entered {halt : Halt} (hin : SameKernel s u)
    (h : SecondIsolation u halt) : SecondIsolation s halt :=
  secondIsolation_statesKept (statesKept_of_tasks hin.currentTask hin.tasks) h

theorem manifestDrift_entered {halt : Halt} (hin : SameKernel s u) (h : ManifestDrift P u halt) :
    ManifestDrift P s halt := by
  simp only [ManifestDrift, Sys.Created, hin.tasks, hin.taskCount] at h
  exact h

theorem exceptionTrap_fatal {mcause syscallId arg0 arg1 arg2 : ℕ} (hf : IsFatal mcause) :
    ∃ reason, exceptionTrap P u mcause syscallId arg0 arg1 arg2 = .error (.haltSystem reason) := by
  obtain ⟨⟨-, hecall⟩, hfault⟩ := hf
  simp only [exceptionTrap]
  split
  case h_1 | h_2 => exact absurd hecall (by simp)
  case h_3 | h_4 | h_5 | h_6 | h_7 | h_8 | h_9 => exact absurd hfault (by simp)
  all_goals exact ⟨_, rfl⟩

theorem trap_fatal (hr : Resumable P s) (hf : IsFatal e.mcause) :
    ∃ reason, trap P s e = .error (.haltSystem reason) := by
  obtain ⟨u, args, hu⟩ := enterHandler_total hr e
  have hcause := (entered_args hu).mcause
  rw [← hcause] at hf
  obtain ⟨reason, hreason⟩ := exceptionTrap_fatal (P := P) (u := u) hf
  refine ⟨reason, bind_eq_error.mpr (.inr ⟨(u, args), hu, bind_eq_error.mpr (.inl ?_)⟩)⟩
  rw [← hreason]
  exact if_neg (not_not.mpr hf.1.1)

theorem entered_clock {args : Reg → ℕ} (h : enterHandler P s e = .ok (u, args)) (mtime : ℕ) :
    clockOverflows u mtime = clockOverflows s mtime := by
  obtain ⟨k, -, -, rfl⟩ := enterHandler_ok h
  rfl

theorem trap_overflow (hr : Resumable P s) (ht : IsTimer e.mcause)
    (hclock : clockOverflows s e.mtime = true) : trap P s e = .error .panic := by
  obtain ⟨u, args, hu⟩ := enterHandler_total hr e
  have hcause := (entered_args hu).mcause
  rw [← entered_clock hu] at hclock
  rw [← hcause] at ht
  refine bind_eq_error.mpr (.inr ⟨(u, args), hu, bind_eq_error.mpr (.inl ?_)⟩)
  rw [trapHandler, if_pos ht.1, if_pos ht.2, timerInterrupt]
  exact bind_eq_error.mpr (.inl (if_pos hclock))

/-- A trap that does not return to U-mode has one of the four causes. -/
theorem trap_error {halt : Halt} (h : Reachable (kernel P) anyStep s)
    (htrap : trap P s e = .error halt) : HaltCause P s e halt := by
  have hi := reachable_taskInv h
  have hsync := (resident_reachable h).inSync
  have hres := resumable_reachable h
  obtain ⟨u, args, hu⟩ := enterHandler_total hres e
  have hin := entered_sameKernel hu
  rw [trap] at htrap
  rcases bind_eq_error.mp htrap with herr | ⟨x, hx, htrap⟩
  · rw [hu] at herr
    cases herr
  · obtain rfl : (u, args) = x := Except.ok.inj (hu.symm.trans hx)
    rcases bind_eq_error.mp htrap with herr | ⟨r, -, herr⟩
    · rcases trapHandler_error (entered_guarded hi hsync hres hu) herr with
        hs | hd | ⟨hf, reason, rfl⟩ | ⟨ht, hclock, rfl⟩
      · exact .secondIsolation (secondIsolation_entered hin hs)
      · exact .manifestDrift (manifestDrift_entered hin hd)
      · rw [(entered_args hu).mcause] at hf
        exact .fatalTrap hf
      · rw [(entered_args hu).mcause] at ht
        rw [entered_clock hu] at hclock
        exact .clockOverflow ht hclock
    · cases herr

end

def haltsWith (x : Except Halt Sys) (halt : Halt) : Bool :=
  match x with
  | .ok _ => false
  | .error reason => reason == halt

theorem haltsWith_eq {x : Except Halt Sys} {halt : Halt} (h : haltsWith x halt = true) :
    x = .error halt := by
  cases x with
  | ok s => cases h
  | error reason => simpa [haltsWith] using h

end KernelHalts
