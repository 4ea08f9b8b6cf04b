import Sipahi.KernelDegradation

/-!
# What time and accounting leave alone

Policy actions, faults, selections and kicks stop tasks, halve budgets and write records. They do
not touch the counters of a task, the clock, the nonces or the channels.
-/
namespace KernelFrame

open KernelTypes KernelPolicy KernelBlackbox KernelCapability KernelState KernelTrapFrame
open KernelScheduler KernelSyscall KernelTrap KernelHandlers KernelEvolution KernelSelection
open KernelReference KernelDegradation RiscvHart GuardedExecution

/-- A task without its state, its budget and the number of its system calls. -/
def counters (t : Task) : Task := { t with state := .dead, budgetCycles := 0, syscallCount := 0 }

/-- What a view of a task shows, two tasks with the same view agree on. -/
theorem view_field {α : Type*} {f : Task → Task} {t u : Task} (h : f t = f u) (g : Task → α)
    (hg : ∀ t, g (f t) = g t) : g t = g u := by
  rw [← hg t, h, hg]

/-- The counters that a kick of the watchdog leaves alone. -/
def timeAccount (t : Task) : Task := { counters t with watchdogCounter := 0 }

/-- The counters that the watchdog loop leaves alone. -/
def budgetAccount (t : Task) : Task :=
  { counters t with watchdogCounter := 0, ipcSendCount := 0 }

/-- The counters that only the watchdog loop, a kick and a send change. -/
def visitAccount (t : Task) : Task :=
  { config t with watchdogCounter := t.watchdogCounter, ipcSendCount := t.ipcSendCount }

/-- Nothing moves but states, budgets, records and what `f` forgets of a task. -/
structure Kept (f : Task → Task) (s u : Sys) : Prop where
  tasks : ∀ i, f (u.tasks i) = f (s.tasks i)
  taskCount : u.taskCount = s.taskCount
  capFailCount : u.capFailCount = s.capFailCount
  tick : u.blackbox.tick = s.blackbox.tick
  bootEpoch : u.blackbox.bootEpoch = s.blackbox.bootEpoch
  lastNonce : u.broker.lastNonce = s.broker.lastNonce
  pool : u.pool = s.pool

section

variable {f : Task → Task} {P : Platform} {s u v : Sys}

theorem Kept.refl (s : Sys) : Kept f s s := ⟨fun _ => rfl, rfl, rfl, rfl, rfl, rfl, rfl⟩

theorem Kept.trans (a : Kept f s u) (b : Kept f u v) : Kept f s v where
  tasks := fun i => (b.tasks i).trans (a.tasks i)
  taskCount := b.taskCount.trans a.taskCount
  capFailCount := b.capFailCount.trans a.capFailCount
  tick := b.tick.trans a.tick
  bootEpoch := b.bootEpoch.trans a.bootEpoch
  lastNonce := b.lastNonce.trans a.lastNonce
  pool := b.pool.trans a.pool

/-- A view that forgets more. -/
theorem Kept.coarsen {g : Task → Task} (h : Kept f s u) (hg : ∀ t, g (f t) = g t) :
    Kept g s u where
  tasks := fun i => view_field (h.tasks i) g hg
  taskCount := h.taskCount
  capFailCount := h.capFailCount
  tick := h.tick
  bootEpoch := h.bootEpoch
  lastNonce := h.lastNonce
  pool := h.pool

/-- One field of one task. -/
theorem Kept.field {α : Type*} (h : Kept f s u) (g : Task → α) (hg : ∀ t, g (f t) = g t)
    (i : TaskIndex) : g (u.tasks i) = g (s.tasks i) :=
  view_field (h.tasks i) g hg

theorem log_kept (s : Sys) (event : BlackboxEvent) (taskId : ℕ) (data : List UInt8) :
    Kept f s (s.log event taskId data) := by
  have hlog : (s.blackbox.log event taskId data).tick = s.blackbox.tick ∧
      (s.blackbox.log event taskId data).bootEpoch = s.blackbox.bootEpoch := by
    rw [Blackbox.log]
    split <;> exact ⟨rfl, rfl⟩
  exact ⟨fun _ => rfl, rfl, rfl, hlog.1, hlog.2, rfl, rfl⟩

theorem setTask_kept {i : TaskIndex} {t : Task} (h : f t = f (s.tasks i)) :
    Kept f s (s.setTask i t) := by
  refine ⟨?_, rfl, rfl, rfl, rfl, rfl, rfl⟩
  intro j
  by_cases hj : j = i
  · subst j
    simpa using h
  · simp [hj]

theorem incrementSyscallCount_kept (s : Sys) : Kept counters s (incrementSyscallCount s) := by
  rw [incrementSyscallCount]
  split
  · exact setTask_kept rfl
  · exact .refl s

/-! ## Policy actions -/

theorem restartTask_kept (P : Platform) (s : Sys) (id : TaskIndex) :
    Kept f s (restartTask P s id) := by
  obtain ⟨hart, hrest⟩ := restartTask_rest P s id
  rw [hrest]
  exact ⟨fun _ => rfl, rfl, rfl, rfl, rfl, rfl, rfl⟩

theorem degradeSystem_kept (s : Sys) : Kept counters s (degradeSystem s) := by
  refine ⟨?_, rfl, rfl, rfl, rfl, rfl, rfl⟩
  intro i
  simp only [degradeSystem, degradeTask]
  split
  · split <;> rfl
  · rfl

theorem isolateTask_kept {id : TaskIndex} (h : isolateTask s id = .ok u) :
    Kept counters s u := by
  obtain ⟨rfl, -⟩ := isolateTask_ok h
  have hframe := markIsolated_frame s id
  have htasks := hframe.field counters fun _ => rfl
  obtain ⟨tasks, cache, hrest⟩ := hframe.rest
  exact ⟨htasks, by rw [hrest], by rw [hrest], by rw [hrest], by rw [hrest], by rw [hrest],
    by rw [hrest]⟩

theorem applyAction_kept {id : TaskIndex} {mode : FailureMode}
    (h : applyAction P s id mode = .ok u) : Kept counters s u := by
  cases mode with
  | restart =>
    cases h
    exact (log_kept ..).trans (restartTask_kept ..)
  | isolate => exact (log_kept ..).trans (isolateTask_kept h)
  | degrade =>
    simp only [applyAction] at h
    split at h
    · cases h
      exact degradeSystem_kept s
    · cases h
      have hflag : Kept counters s { s with degradeLogged := true } :=
        ⟨fun _ => rfl, rfl, rfl, rfl, rfl, rfl, rfl⟩
      exact (hflag.trans (log_kept ..)).trans (degradeSystem_kept _)
  | failover =>
    cases h
    exact (log_kept ..).trans (degradeSystem_kept _)
  | alert =>
    cases h
    exact .refl s
  | shutdown => cases h

theorem respond_kept {id : TaskIndex} {taskId dal : ℕ} {event : PolicyEvent}
    (h : respond P s id taskId event dal = .ok u) : Kept counters s u := by
  have hconsult : Kept counters s (consultPolicy s taskId event dal).2 :=
    ⟨fun _ => rfl, rfl, rfl, rfl, rfl, rfl, rfl⟩
  exact hconsult.trans (applyAction_kept h)

/-- An event is recorded and then answered. -/
theorem logged_respond_kept {id : TaskIndex} {taskId dal recordId : ℕ} {event : PolicyEvent}
    {kind : BlackboxEvent} {data : List UInt8}
    (h : respond P (s.log kind recordId data) id taskId event dal = .ok u) : Kept counters s u :=
  (log_kept ..).trans (respond_kept h)

/-! ## Faults, kicks and selections -/

theorem handleTaskFault_kept (h : handleTaskFault P s = .ok u) : Kept counters s u := by
  rw [handleTaskFault] at h
  split at h
  · exact respond_kept h
  · cases h
    exact .refl s

theorem deadlinePhase_kept {mtime : ℕ} (h : deadlinePhase P s mtime = .ok u) :
    Kept counters s u := by
  have harm : Kept counters s (armNextTick s mtime) := ⟨fun _ => rfl, rfl, rfl, rfl, rfl, rfl, rfl⟩
  obtain ⟨-, h⟩ := deadlinePhase_ok.mp h
  simp only [answerDeadline] at h
  split at h
  · exact harm.trans (logged_respond_kept h)
  · cases h
    exact harm

theorem checkKickWindow_kept (h : checkKickWindow P s = .ok u) : Kept counters s u := by
  simp only [checkKickWindow] at h
  split at h
  · exact logged_respond_kept h
  · cases h
    exact .refl s

theorem watchdogKick_kept (h : watchdogKick P s = .ok u) : Kept timeAccount s u := by
  rw [watchdogKick] at h
  split at h
  · obtain ⟨q, hq, hu⟩ := bind_eq_ok.mp h
    cases hu
    have hwindow : Kept timeAccount s q := (checkKickWindow_kept hq).coarsen fun _ => rfl
    exact hwindow.trans (setTask_kept rfl)
  · cases h
    exact .refl s

theorem select_kept {old : TaskIndex} {flow : Flow}
    (h : doPrioritySelectAndSwitch P s old = .ok (u, flow)) : Kept counters s u := by
  rcases select_cases h with ⟨-, rfl, -⟩ | ⟨next, -, hs⟩
  · exact .refl _
  · obtain ⟨pmp, rfl⟩ := hs.state
    refine ⟨?_, rfl, rfl, rfl, rfl, rfl, rfl⟩
    intro i
    exact handOver_field counters (fun _ _ => rfl) s.tasks old next i

theorem scheduleYield_kept {flow : Flow} (h : scheduleYield P s = .ok (u, flow)) :
    Kept counters s u := by
  rw [scheduleYield] at h
  split at h
  · cases h
    exact .refl s
  · exact select_kept h

/-! ## The phases of a tick -/

theorem periodPhase_kept (s : Sys) : Kept config s (periodPhase s) := by
  refine ⟨?_, rfl, rfl, rfl, rfl, rfl, rfl⟩
  intro i
  simp only [periodPhase]
  split
  · exact periodTask_config _
  · rfl

theorem tryRecoverFromDegrade_kept (s : Sys) : Kept config s (tryRecoverFromDegrade s) := by
  rw [tryRecoverFromDegrade]
  split
  · have hwoken : Kept config s { s with
        tasks := fun i => if i.val < s.taskCount then recoverTask (s.tasks i) else s.tasks i
        degraded := false
        degradeLogged := false } := by
      refine ⟨?_, rfl, rfl, rfl, rfl, rfl, rfl⟩
      intro i
      dsimp only
      split
      · exact recoverTask_config _
      · rfl
    exact hwoken.trans (log_kept ..)
  · exact .refl s

theorem watchdogCount_account (t : Task) : budgetAccount (watchdogCount t) = budgetAccount t := by
  simp only [watchdogCount]
  split <;> split <;> rfl

theorem watchdogTask_kept {w : TaskIndex} (h : watchdogTask P s w = .ok u) :
    Kept budgetAccount s u := by
  simp only [watchdogTask] at h
  split at h
  · have hcount : Kept budgetAccount s (s.setTask w (watchdogCount (s.tasks w))) :=
      setTask_kept (watchdogCount_account _)
    split at h
    · obtain ⟨q, hq, hu⟩ := bind_eq_ok.mp h
      cases hu
      have hanswer : Kept budgetAccount (s.setTask w (watchdogCount (s.tasks w))) q :=
        (logged_respond_kept hq).coarsen fun _ => rfl
      exact (hcount.trans hanswer).trans (setTask_kept rfl)
    · cases h
      exact hcount
  · cases h
    exact .refl s

theorem watchdogPhase_kept (h : watchdogPhase P s = .ok u) : Kept budgetAccount s u := by
  apply run_keeps (I := Kept budgetAccount s) _ (.refl s) h
  intro q w x hq hw
  exact hq.trans (watchdogTask_kept hw)

theorem budgetPhase_kept {old : TaskIndex} (h : budgetPhase P s old = .ok u) :
    Kept config s u := by
  simp only [budgetPhase] at h
  split at h
  · have hcharge : Kept config s (s.setTask old (chargeTick (s.tasks old))) :=
      setTask_kept (chargeTick_config _)
    split at h
    · exact hcharge.trans ((logged_respond_kept h).coarsen fun _ => rfl)
    · cases h
      exact hcharge
  · cases h
    exact .refl s

/-- Once the clock has advanced, a tick keeps all but the accounts of the tasks. -/
theorem tickPhases_kept (h : tickPhases P s = .ok u) :
    Kept config { s with blackbox := s.blackbox.advanceTick } u := by
  rw [tickPhases] at h
  obtain ⟨q, hq, h⟩ := bind_eq_ok.mp h
  obtain ⟨v, hv, hu⟩ := bind_eq_ok.mp h
  rw [tickBeforeWatchdog_ok hq] at hv
  have hwatchdog : Kept config _ v := (watchdogPhase_kept hv).coarsen fun _ => rfl
  exact (((periodPhase_kept _).trans (tryRecoverFromDegrade_kept _)).trans hwatchdog).trans
    (budgetPhase_kept hu)

/-! ## Trap entry and exit -/

theorem entered_kept {e : TrapEvent} {args : Reg → ℕ} (h : enterHandler P s e = .ok (u, args)) :
    Kept f s u := by
  obtain ⟨k, -, -, rfl⟩ := enterHandler_ok h
  exact ⟨fun _ => rfl, rfl, rfl, rfl, rfl, rfl, rfl⟩

theorem leaveHandler_kept (P : Platform) (s : Sys) (r : Option ℕ) :
    Kept f s (leaveHandler P (s, r)) := by
  cases r <;> exact ⟨fun _ => rfl, rfl, rfl, rfl, rfl, rfl, rfl⟩

/-! ## The trap by its cause -/

theorem faultTrap_kept {mcause syscallId arg0 arg1 arg2 : ℕ} {r : Option ℕ}
    (hno : ¬ (mcause = 8 ∨ mcause = 11))
    (h : exceptionTrap P s mcause syscallId arg0 arg1 arg2 = .ok (u, r)) : Kept counters s u := by
  simp only [exceptionTrap] at h
  split at h
  case h_1 | h_2 => exact absurd (by simp) hno
  case h_3 | h_4 | h_5 | h_6 | h_7 =>
    obtain ⟨q, hq, h⟩ := bind_eq_ok.mp h
    cases h
    exact (log_kept ..).trans (handleTaskFault_kept hq)
  case h_8 | h_9 =>
    obtain ⟨q, hq, h⟩ := bind_eq_ok.mp h
    cases h
    rw [respondToAccessFault] at hq
    split at hq
    · exact logged_respond_kept hq
    · exact (log_kept ..).trans (handleTaskFault_kept hq)
  all_goals cases h

/-- A tick, a system call, a fault, or an interrupt of another kind. -/
inductive Handled (P : Platform) (u : Sys) (e : TrapEvent) (w : Sys) (r : Option ℕ) : Prop where
  | timer : IsTimer e.mcause → timerInterrupt P u e.mtime = .ok (w, r) → Handled P u e w r
  | syscall : IsEcall e.mcause →
      dispatch P u (e.regs .a7) (e.regs .a0) (e.regs .a1) (e.regs .a2) = .ok (w, r) →
      Handled P u e w r
  | fault : IsFault e.mcause →
      exceptionTrap P u e.mcause (e.regs .a7) (e.regs .a0) (e.regs .a1) (e.regs .a2) =
        .ok (w, r) → Handled P u e w r
  | ignored : ¬ IsTimer e.mcause → ¬ IsEcall e.mcause → w = u → Handled P u e w r

theorem trapHandler_handled {e : TrapEvent} {args : Reg → ℕ} {r : Option ℕ}
    (ha : HandlerArgs e args)
    (h : trapHandler P s e.mtime (args .a0) (args .a2) (args .a3) (args .a4) (args .a5) =
      .ok (u, r)) : Handled P s e u r := by
  rw [ha.mcause, ha.syscallId, ha.arg0, ha.arg1, ha.arg2, trapHandler] at h
  split at h
  · rename_i hint
    split at h
    · rename_i htimer
      exact .timer ⟨hint, htimer⟩ h
    · rename_i hother
      cases h
      exact .ignored (fun ht => hother ht.2) (fun he => hint he.1) rfl
  · rename_i hint
    by_cases hecall : e.mcause = 8 ∨ e.mcause = 11
    · refine .syscall ⟨not_not.mp hint, hecall⟩ ?_
      have hbody : ecallTrap P s e.mcause (e.regs .a7) (e.regs .a0) (e.regs .a1) (e.regs .a2) =
          .ok (u, r) := by
        rcases hecall with hc | hc <;> simpa only [exceptionTrap, hc] using h
      obtain ⟨-, -, hd⟩ := bind_eq_ok.mp hbody
      exact hd
    · exact .fault ⟨not_not.mp hint, hecall⟩ h

theorem trap_handled {e : TrapEvent} (h : trap P s e = .ok v) :
    ∃ u args w r, enterHandler P s e = .ok (u, args) ∧ Handled P u e w r ∧
      v = leaveHandler P (w, r) := by
  rw [trap] at h
  obtain ⟨⟨u, args⟩, hu, h⟩ := bind_eq_ok.mp h
  obtain ⟨⟨w, r⟩, hw, h⟩ := bind_eq_ok.mp h
  exact ⟨u, args, w, r, hu, trapHandler_handled (entered_args hu) hw, (Except.ok.inj h).symm⟩

/-- A numbered system call runs with the call counted. -/
theorem dispatch_served {syscallId arg0 arg1 arg2 : ℕ} {r : Option ℕ}
    (hid : syscallId < syscallCount)
    (h : dispatch P s syscallId arg0 arg1 arg2 = .ok (u, r)) :
    ∃ x, syscallTable P (incrementSyscallCount s) syscallId arg0 arg1 arg2 = .ok (u, x) := by
  rw [dispatch, if_neg (by omega)] at h
  obtain ⟨⟨v, x⟩, hv, h⟩ := bind_eq_ok.mp h
  cases h
  exact ⟨x, hv⟩

/-! ## Runs of yields -/

/-- The current task calls `SYS_YIELD`. -/
def YieldCall (e : TrapEvent) : Prop := IsEcall e.mcause ∧ e.regs .a7 = sysYieldId

instance (e : TrapEvent) : Decidable (YieldCall e) := inferInstanceAs (Decidable (_ ∧ _))

theorem ecall_not_timer {mcause : ℕ} (h : IsEcall mcause) : ¬ IsTimer mcause :=
  fun ht => ht.1 h.1

/-- A yield is a kick and then a selection. -/
theorem yield_served {e : TrapEvent} (hy : YieldCall e) (h : trap P s e = .ok v) :
    ∃ u args q w flow r, enterHandler P s e = .ok (u, args) ∧
      watchdogKick P (incrementSyscallCount u) = .ok q ∧ scheduleYield P q = .ok (w, flow) ∧
      v = leaveHandler P (w, r) := by
  obtain ⟨u, args, w, r, hu, hw, rfl⟩ := trap_handled h
  cases hw with
  | timer ht => exact absurd ht (ecall_not_timer hy.1)
  | syscall _ hd =>
    rw [hy.2] at hd
    obtain ⟨x, hx⟩ := dispatch_served (by decide) hd
    obtain ⟨q, hq, hx⟩ := bind_eq_ok.mp hx
    obtain ⟨⟨y, flow⟩, hy, hx⟩ := bind_eq_ok.mp hx
    obtain ⟨rfl, -⟩ := okUnlessStarted_eq (Except.ok.inj hx)
    exact ⟨u, args, q, y, flow, r, hu, hq, hy, rfl⟩
  | fault hf => exact absurd hy.1.2 hf.2
  | ignored _ he => exact absurd hy.1 he

theorem yield_kept {e : TrapEvent} (hy : YieldCall e) (h : trap P s e = .ok v) :
    Kept timeAccount s v := by
  obtain ⟨u, args, q, w, flow, r, hu, hq, hw, rfl⟩ := yield_served hy h
  have hcounted : Kept timeAccount s (incrementSyscallCount u) :=
    (entered_kept hu).trans ((incrementSyscallCount_kept u).coarsen fun _ => rfl)
  have hselected : Kept timeAccount q w := (scheduleYield_kept hw).coarsen fun _ => rfl
  exact ((hcounted.trans (watchdogKick_kept hq)).trans hselected).trans (leaveHandler_kept P w r)

theorem yields_kept {es : List TrapEvent} (hy : ∀ e ∈ es, YieldCall e)
    (h : run (kernel P) s es = .ok v) : Kept timeAccount s v := by
  induction es generalizing s with
  | nil =>
    cases h
    exact .refl _
  | cons e es ih =>
    obtain ⟨u, hu, hv⟩ := run_cons_ok.mp h
    have hfirst : Kept timeAccount s u := yield_kept (hy e List.mem_cons_self) hu
    exact hfirst.trans (ih (fun e' he' => hy e' (List.mem_cons_of_mem e he')) hv)

end

/-- No sequence of yields moves the clock, an account, a nonce or a queue. -/
theorem yields_cannot_move_time {P : Platform} {s v : Sys} {es : List TrapEvent}
    (hy : ∀ e ∈ es, YieldCall e) (h : run (kernel P) s es = .ok v) :
    v.blackbox.tick = s.blackbox.tick ∧ v.blackbox.bootEpoch = s.blackbox.bootEpoch ∧
      (∀ i, (v.tasks i).ipcSendCount = (s.tasks i).ipcSendCount ∧
        (v.tasks i).remainingCycles = (s.tasks i).remainingCycles ∧
        (v.tasks i).periodCounter = (s.tasks i).periodCounter ∧
        (v.tasks i).periodTicks = (s.tasks i).periodTicks ∧
        (v.tasks i).originalBudget = (s.tasks i).originalBudget) ∧
      v.broker.lastNonce = s.broker.lastNonce ∧ v.pool = s.pool := by
  have hk := yields_kept hy h
  refine ⟨hk.tick, hk.bootEpoch, ?_, hk.lastNonce, hk.pool⟩
  intro i
  refine ⟨hk.field Task.ipcSendCount (fun _ => rfl) i,
    hk.field Task.remainingCycles (fun _ => rfl) i,
    hk.field Task.periodCounter (fun _ => rfl) i,
    hk.field Task.periodTicks (fun _ => rfl) i,
    hk.field Task.originalBudget (fun _ => rfl) i⟩

/-- Two yields too early, the first of which degrades the system. -/
theorem early_yields_keep_time : ∃ s v,
    run (kernel referencePlatform) s [earlyYield, earlyYield] = .ok v ∧ s.degraded = false ∧
      v.degraded = true ∧ v.blackbox.tick = s.blackbox.tick ∧ v.pool = s.pool := by
  obtain ⟨s, hs, ht⟩ := endsWith_iff.mp (show endsWith (scenario bootInit [])
    (fun s => !s.degraded && endsWith (run (kernel referencePlatform) s [earlyYield, earlyYield])
      (·.degraded)) = true by decide +kernel)
  rw [Bool.and_eq_true, Bool.not_eq_true'] at ht
  obtain ⟨v, hv, hd⟩ := endsWith_iff.mp ht.2
  have hkept := yields_cannot_move_time (by decide) hv
  exact ⟨s, v, hv, ht.1, hd, hkept.1, hkept.2.2.2.2⟩

end KernelFrame
