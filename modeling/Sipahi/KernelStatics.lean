import Sipahi.KernelSelection

/-!
# What the policy and the phases of a tick leave alone

The PMP registers, the channels, the memory of the tasks and the tick counter. Registers are
reloaded by a switch only, channels and memory change in the IPC system calls only.
-/
namespace KernelStatics

open KernelTypes KernelPolicy KernelBlackbox KernelState KernelTrapFrame KernelScheduler
open KernelSyscall KernelTrap KernelHandlers KernelEvolution KernelSelection GuardedExecution

structure StaticsKept (s u : Sys) : Prop where
  pmp : u.pmp = s.pmp
  pool : u.pool = s.pool
  userMem : u.userMem = s.userMem
  tickCount : u.tickCount = s.tickCount

section

variable {P : Platform} {s u v : Sys}

theorem StaticsKept.refl (s : Sys) : StaticsKept s s := ⟨rfl, rfl, rfl, rfl⟩

theorem StaticsKept.trans (a : StaticsKept s u) (b : StaticsKept u v) : StaticsKept s v where
  pmp := b.pmp.trans a.pmp
  pool := b.pool.trans a.pool
  userMem := b.userMem.trans a.userMem
  tickCount := b.tickCount.trans a.tickCount

theorem log_statics (s : Sys) (event : BlackboxEvent) (taskId : ℕ) (data : List UInt8) :
    StaticsKept s (s.log event taskId data) := ⟨rfl, rfl, rfl, rfl⟩

theorem setTask_statics (s : Sys) (i : TaskIndex) (t : Task) : StaticsKept s (s.setTask i t) :=
  ⟨rfl, rfl, rfl, rfl⟩

theorem countFrame_statics (h : CountFrame s u) : StaticsKept s u := by
  obtain ⟨⟨tasks, rfl⟩, -⟩ := h
  exact ⟨rfl, rfl, rfl, rfl⟩

/-! ## Policy actions -/

theorem restartTask_statics (P : Platform) (s : Sys) (id : TaskIndex) :
    StaticsKept s (restartTask P s id) := by
  obtain ⟨hart, hrest⟩ := restartTask_rest P s id
  rw [hrest]
  exact ⟨rfl, rfl, rfl, rfl⟩

theorem isolateTask_statics {id : TaskIndex} (h : isolateTask s id = .ok u) :
    StaticsKept s u := by
  obtain ⟨rfl, -⟩ := isolateTask_ok h
  obtain ⟨tasks, cache, hrest⟩ := (markIsolated_frame s id).rest
  rw [hrest]
  exact ⟨rfl, rfl, rfl, rfl⟩

theorem applyAction_statics {id : TaskIndex} {mode : FailureMode}
    (h : applyAction P s id mode = .ok u) : StaticsKept s u := by
  cases mode with
  | restart =>
    cases h
    exact (log_statics ..).trans (restartTask_statics ..)
  | isolate => exact (log_statics ..).trans (isolateTask_statics h)
  | degrade =>
    simp only [applyAction] at h
    split at h <;> cases h <;> exact ⟨rfl, rfl, rfl, rfl⟩
  | failover =>
    cases h
    exact ⟨rfl, rfl, rfl, rfl⟩
  | alert =>
    cases h
    exact .refl s
  | shutdown => cases h

theorem respond_statics {id : TaskIndex} {taskId dal : ℕ} {event : PolicyEvent}
    (h : respond P s id taskId event dal = .ok u) : StaticsKept s u := by
  simp only [respond, consultPolicy] at h
  have hq := applyAction_statics h
  exact ⟨hq.pmp, hq.pool, hq.userMem, hq.tickCount⟩

theorem handleTaskFault_statics (h : handleTaskFault P s = .ok u) : StaticsKept s u := by
  rw [handleTaskFault] at h
  split at h
  · exact respond_statics h
  · cases h
    exact .refl s

/-- A record followed by the policy's answer. -/
theorem logged_respond_statics {id : TaskIndex} {taskId dal recordId : ℕ} {event : PolicyEvent}
    {record : BlackboxEvent} {data : List UInt8}
    (h : respond P (s.log record recordId data) id taskId event dal = .ok u) :
    StaticsKept s u :=
  (log_statics ..).trans (respond_statics h)

/-! ## The phases of a tick -/

theorem tryRecoverFromDegrade_statics (s : Sys) : StaticsKept s (tryRecoverFromDegrade s) := by
  rw [tryRecoverFromDegrade]
  split <;> exact ⟨rfl, rfl, rfl, rfl⟩

theorem tickBeforeWatchdog_statics (h : tickBeforeWatchdog s = .ok u) : StaticsKept s u := by
  rw [tickBeforeWatchdog] at h
  obtain ⟨q, hq, h⟩ := bind_eq_ok.mp h
  cases h
  obtain rfl := pmpIntegrityPhase_ok hq
  have hperiods : StaticsKept s (periodPhase { s with blackbox := s.blackbox.advanceTick }) :=
    ⟨rfl, rfl, rfl, rfl⟩
  exact hperiods.trans (tryRecoverFromDegrade_statics _)

theorem watchdogTask_statics {w : TaskIndex} (h : watchdogTask P s w = .ok u) :
    StaticsKept s u := by
  rw [watchdogTask] at h
  split at h
  · dsimp only at h
    split at h
    · obtain ⟨q, hq, h⟩ := bind_eq_ok.mp h
      cases h
      exact ((setTask_statics ..).trans (logged_respond_statics hq)).trans (setTask_statics ..)
    · cases h
      exact setTask_statics _ _ _
  · cases h
    exact .refl s

theorem watchdogPhase_statics (h : watchdogPhase P s = .ok u) : StaticsKept s u :=
  run_keeps (M := watchdogLoop P) (I := fun x => StaticsKept s x)
    (fun _ _ _ hx hstep => hx.trans (watchdogTask_statics hstep)) (.refl s) h

theorem budgetPhase_statics {old : TaskIndex} (h : budgetPhase P s old = .ok u) :
    StaticsKept s u := by
  rw [budgetPhase] at h
  dsimp only at h
  split at h
  · split at h
    · exact (setTask_statics ..).trans (logged_respond_statics h)
    · cases h
      exact setTask_statics _ _ _
  · cases h
    exact .refl s

theorem tickPhases_statics (h : tickPhases P s = .ok u) : StaticsKept s u := by
  rw [tickPhases] at h
  obtain ⟨q, hq, h⟩ := bind_eq_ok.mp h
  obtain ⟨x, hx, hu⟩ := bind_eq_ok.mp h
  exact ((tickBeforeWatchdog_statics hq).trans (watchdogPhase_statics hx)).trans
    (budgetPhase_statics hu)

/-- Nothing but the tick counter. -/
theorem deadlinePhase_statics {mtime : ℕ} (h : deadlinePhase P s mtime = .ok u) :
    StaticsKept (armNextTick s mtime) u := by
  obtain ⟨-, h⟩ := deadlinePhase_ok.mp h
  simp only [answerDeadline] at h
  split at h
  · exact logged_respond_statics h
  · cases h
    exact .refl _

/-! ## System calls -/

theorem watchdogKick_statics (h : watchdogKick P s = .ok u) : StaticsKept s u := by
  rw [watchdogKick] at h
  split at h
  · obtain ⟨q, hq, h⟩ := bind_eq_ok.mp h
    cases h
    simp only [checkKickWindow] at hq
    split at hq
    · exact (logged_respond_statics hq).trans (setTask_statics ..)
    · cases hq
      exact setTask_statics _ _ _
  · cases h
    exact .refl s

theorem recordCapResult_statics {ok : Bool} (h : recordCapResult P s ok = .ok u) :
    StaticsKept s u := by
  simp only [recordCapResult] at h
  split at h
  · cases h
    exact ⟨rfl, rfl, rfl, rfl⟩
  · split at h
    · have hq := logged_respond_statics h
      exact ⟨hq.pmp, hq.pool, hq.userMem, hq.tickCount⟩
    · cases h
      exact ⟨rfl, rfl, rfl, rfl⟩

theorem sysCapInvoke_statics {x cap resource action : ℕ}
    (h : sysCapInvoke P s cap resource action = .ok (u, x)) : StaticsKept s u := by
  rw [sysCapInvoke] at h
  split at h
  · cases h
    exact .refl s
  · split at h
    · cases h
      exact .refl s
    · obtain ⟨q, hq, h⟩ := bind_eq_ok.mp h
      cases h
      exact recordCapResult_statics hq

/-! ## Traps -/

/-- The state at a selection differs from that at handler entry by at most the armed tick. -/
theorem atSelection_statics {q : Sys} {mtime mcause syscallId : ℕ}
    (h : AtSelection P u mtime mcause syscallId q) :
    q.pmp = u.pmp ∧ q.pool = u.pool ∧ q.userMem = u.userMem := by
  rcases h with ⟨-, v, hv, hq⟩ | ⟨-, -, hq⟩ | ⟨-, -, hq⟩
  · have hk := (deadlinePhase_statics hv).trans (tickPhases_statics hq)
    exact ⟨hk.pmp, hk.pool, hk.userMem⟩
  · have hk := (countFrame_statics (incrementSyscallCount_counted u)).trans (watchdogKick_statics hq)
    exact ⟨hk.pmp, hk.pool, hk.userMem⟩
  · have hk := (countFrame_statics (incrementSyscallCount_counted u)).trans (isolateTask_statics hq)
    exact ⟨hk.pmp, hk.pool, hk.userMem⟩

end

end KernelStatics
