import Sipahi.KernelFrame

/-!
# The accounts of the tasks along a trap

Where a tick stands when it resets a period, visits a task in the watchdog loop and charges the
budget, and what every other trap does to the counters of a task.
-/
namespace KernelAccounting

open KernelTypes KernelPolicy KernelBlackbox KernelState KernelTrapFrame KernelScheduler
open KernelSyscall KernelTrap KernelHandlers KernelEvolution KernelSelection KernelTaskInvariants
open KernelDegradation KernelFrame RiscvHart GuardedExecution

/-! ## The points of a tick -/

/-- The state in which `schedule_timer_tick` is called, if it has a task to schedule. -/
def tickEntry (P : Platform) (s : Sys) (e : TrapEvent) : Option Sys :=
  if IsTimer e.mcause then do
    let (u, _) ← (enterHandler P s e).toOption
    let v ← (deadlinePhase P u e.mtime).toOption
    if v.taskCount = 0 then none else some v
  else none

/-- The state in which the tick counts the periods. -/
def periodPoint (P : Platform) (s : Sys) (e : TrapEvent) : Option Sys :=
  (tickEntry P s e).bind fun v =>
    (pmpIntegrityPhase { v with blackbox := v.blackbox.advanceTick }).toOption

/-- The state in which the watchdog loop starts. -/
def watchdogPoint (P : Platform) (s : Sys) (e : TrapEvent) : Option Sys :=
  (periodPoint P s e).map fun x => tryRecoverFromDegrade (periodPhase x)

/-- The state in which the watchdog loop comes to the task. -/
def visitPoint (P : Platform) (i : TaskIndex) (s : Sys) (e : TrapEvent) : Option Sys :=
  (watchdogPoint P s e).bind fun z =>
    (run (watchdogLoop P) z ((List.finRange maxTasks).take i.val)).toOption

/-- The state in which the tick charges the budget. -/
def budgetPoint (P : Platform) (s : Sys) (e : TrapEvent) : Option Sys :=
  (watchdogPoint P s e).bind fun z => (watchdogPhase P z).toOption

/-! ## What no policy action loosens -/

/-- Nobody becomes selectable and no budget grows. -/
structure Restrains (s u : Sys) : Prop where
  taskCount : u.taskCount = s.taskCount
  selectable : ∀ i, isSelectableByScheduler (u.tasks i).state = true →
    isSelectableByScheduler (s.tasks i).state = true
  budget : ∀ i, (u.tasks i).budgetCycles ≤ (s.tasks i).budgetCycles

section

variable {P : Platform} {s u v : Sys}

theorem restrains_of_tasks (hc : u.taskCount = s.taskCount) (ht : u.tasks = s.tasks) :
    Restrains s u := by
  refine ⟨hc, ?_, ?_⟩
  · intro i h
    exact ht ▸ h
  · intro i
    rw [ht]

theorem Restrains.refl (s : Sys) : Restrains s s := restrains_of_tasks rfl rfl

theorem Restrains.trans (a : Restrains s u) (b : Restrains u v) : Restrains s v where
  taskCount := b.taskCount.trans a.taskCount
  selectable := fun i h => a.selectable i (b.selectable i h)
  budget := fun i => (b.budget i).trans (a.budget i)

theorem setTask_restrains {i : TaskIndex} {t : Task}
    (hs : isSelectableByScheduler t.state = true →
      isSelectableByScheduler (s.tasks i).state = true)
    (hb : t.budgetCycles ≤ (s.tasks i).budgetCycles) : Restrains s (s.setTask i t) := by
  refine ⟨rfl, ?_, ?_⟩
  · intro j hj
    by_cases hi : j = i
    · subst j
      exact hs (by simpa using hj)
    · simpa [hi] using hj
  · intro j
    by_cases hi : j = i
    · subst j
      simpa using hb
    · simp [hi]

theorem degradeSystem_restrains (s : Sys) : Restrains s (degradeSystem s) := by
  refine ⟨rfl, ?_, ?_⟩
  · intro i h
    simp only [degradeSystem, degradeTask] at h
    split at h
    · split at h
      · cases h
      · exact h
    · exact h
  · intro i
    simp only [degradeSystem, degradeTask]
    split
    · split
      · exact Nat.div_le_self _ _
      · exact le_rfl
    · exact le_rfl

theorem isolateTask_restrains {id : TaskIndex} (h : isolateTask s id = .ok u) :
    Restrains s u := by
  obtain ⟨rfl, -⟩ := isolateTask_ok h
  have hframe := markIsolated_frame s id
  have hbudget := hframe.field Task.budgetCycles fun _ => rfl
  obtain ⟨tasks, cache, hrest⟩ := hframe.rest
  refine ⟨by rw [hrest], ?_, fun i => (hbudget i).le⟩
  intro i hsel
  rcases hframe.state i with hsame | ⟨-, hnow⟩
  · rwa [hsame] at hsel
  · rw [hnow] at hsel
    cases hsel

theorem respond_restrains {id : TaskIndex} {taskId dal : ℕ} {event : PolicyEvent}
    (h : respond P s id taskId event dal = .ok u) : Restrains s u := by
  obtain ⟨q, hq, ha⟩ := respond_acts h
  have hsq : Restrains s q := restrains_of_tasks hq.taskCount hq.tasks
  refine hsq.trans ?_
  cases hmode : answer s taskId event dal with
  | restart =>
    rw [hmode] at ha
    obtain rfl : u = restartTask P q id := ha
    obtain ⟨hart, hrest⟩ := restartTask_rest P q id
    rw [hrest]
    exact restrains_of_tasks rfl rfl
  | isolate =>
    rw [hmode] at ha
    exact isolateTask_restrains ha
  | degrade | failover =>
    rw [hmode] at ha
    obtain rfl : u = degradeSystem q := ha
    exact degradeSystem_restrains q
  | alert =>
    rw [hmode] at ha
    obtain rfl : u = q := ha
    exact .refl u
  | shutdown =>
    rw [hmode] at ha
    exact ha.elim

theorem logged_respond_restrains {id : TaskIndex} {taskId dal recordId : ℕ} {event : PolicyEvent}
    {kind : BlackboxEvent} {data : List UInt8}
    (h : respond P (s.log kind recordId data) id taskId event dal = .ok u) : Restrains s u := by
  have hlog : Restrains s (s.log kind recordId data) := restrains_of_tasks rfl rfl
  exact hlog.trans (respond_restrains h)

theorem handleTaskFault_restrains (h : handleTaskFault P s = .ok u) : Restrains s u := by
  rw [handleTaskFault] at h
  split at h
  · exact respond_restrains h
  · cases h
    exact .refl s

theorem deadlinePhase_restrains {mtime : ℕ} (h : deadlinePhase P s mtime = .ok u) :
    Restrains s u := by
  have harm : Restrains s (armNextTick s mtime) := restrains_of_tasks rfl rfl
  obtain ⟨-, h⟩ := deadlinePhase_ok.mp h
  simp only [answerDeadline] at h
  split at h
  · exact harm.trans (logged_respond_restrains h)
  · cases h
    exact harm

theorem watchdogKick_restrains (h : watchdogKick P s = .ok u) : Restrains s u := by
  rw [watchdogKick] at h
  split at h
  · obtain ⟨q, hq, hu⟩ := bind_eq_ok.mp h
    cases hu
    have hwindow : Restrains s q := by
      simp only [checkKickWindow] at hq
      split at hq
      · exact logged_respond_restrains hq
      · cases hq
        exact .refl s
    exact hwindow.trans (setTask_restrains (fun h => h) le_rfl)
  · cases h
    exact .refl s

/-- A hand-over goes to a selectable task and leaves a running one `Ready`. -/
theorem select_restrains {old : TaskIndex} {flow : Flow}
    (h : doPrioritySelectAndSwitch P s old = .ok (u, flow)) : Restrains s u := by
  rcases select_cases h with ⟨-, rfl, -⟩ | ⟨next, ht, hs⟩
  · exact .refl _
  · obtain ⟨-, hnext, -⟩ := switchTarget_some ht
    obtain ⟨pmp, rfl⟩ := hs.state
    refine ⟨rfl, ?_, ?_⟩
    · intro i hi
      by_cases hin : i = next
      · subst i
        exact (selectNext_some hnext).1.2
      · rcases handOver_other s.tasks old hin with ⟨hsame, -⟩ | ⟨-, hrun, -⟩
        · exact hsame ▸ hi
        · simp [isSelectableByScheduler, hrun]
    · intro i
      exact (handOver_budget s.tasks old next i).le

theorem scheduleYield_restrains {flow : Flow} (h : scheduleYield P s = .ok (u, flow)) :
    Restrains s u := by
  rw [scheduleYield] at h
  split at h
  · cases h
    exact .refl s
  · exact select_restrains h

theorem watchdogTask_restrains {w : TaskIndex} (h : watchdogTask P s w = .ok u) :
    Restrains s u := by
  simp only [watchdogTask] at h
  split at h
  · have hcount : Restrains s (s.setTask w (watchdogCount (s.tasks w))) :=
      setTask_restrains (by rw [watchdogCount_state]; exact id) (watchdogCount_budget _).le
    split at h
    · obtain ⟨q, hq, hu⟩ := bind_eq_ok.mp h
      cases hu
      have hanswer := hcount.trans (logged_respond_restrains hq)
      exact hanswer.trans (setTask_restrains (fun h => h) le_rfl)
    · cases h
      exact hcount
  · cases h
    exact .refl s

theorem watchdogRun_restrains {ws : List TaskIndex} (h : run (watchdogLoop P) s ws = .ok u) :
    Restrains s u := by
  apply run_keeps (I := Restrains s) _ (.refl s) h
  intro q w x hq hw
  exact hq.trans (watchdogTask_restrains hw)

theorem budgetPhase_restrains {old : TaskIndex} (h : budgetPhase P s old = .ok u) :
    Restrains s u := by
  simp only [budgetPhase] at h
  split at h
  · rename_i hactive
    have hrun := budgetActive_running hactive
    have hcharge : Restrains s (s.setTask old (chargeTick (s.tasks old))) :=
      setTask_restrains (fun _ => by simp [isSelectableByScheduler, hrun])
        (chargeTick_budget _).le
    split at h
    · exact hcharge.trans (logged_respond_restrains h)
    · cases h
      exact hcharge
  · cases h
    exact .refl s

/-! ## The watchdog loop and one task -/

theorem counters_setTask_of_ne {i w : TaskIndex} (h : i ≠ w) (t : Task) :
    counters ((s.setTask w t).tasks i) = counters (s.tasks i) := by
  simp [h]

theorem watchdogRun_taskInv {ws : List TaskIndex} (hs : TaskInv s)
    (h : run (watchdogLoop P) s ws = .ok u) : TaskInv u := by
  apply run_keeps (I := TaskInv) _ hs h
  intro q w x hq hw
  exact taskInv_evolves (watchdogTask_evolves hw) hq

/-- The visit of another task. -/
theorem watchdogTask_other {i w : TaskIndex} (hi : i ≠ w) (h : watchdogTask P s w = .ok u) :
    counters (u.tasks i) = counters (s.tasks i) := by
  simp only [watchdogTask] at h
  split at h
  · split at h
    · obtain ⟨q, hq, hu⟩ := bind_eq_ok.mp h
      cases hu
      rw [clearWatchdog, counters_setTask_of_ne hi, (logged_respond_kept hq).tasks,
        counters_setTask_of_ne hi]
    · cases h
      exact counters_setTask_of_ne hi _
  · cases h
    rfl

theorem watchdogRun_other {i : TaskIndex} {ws : List TaskIndex} (hi : i ∉ ws)
    (h : run (watchdogLoop P) s ws = .ok u) : counters (u.tasks i) = counters (s.tasks i) := by
  induction ws generalizing s with
  | nil =>
    cases h
    rfl
  | cons w ws ih =>
    obtain ⟨q, hq, hu⟩ := run_cons_ok.mp h
    rw [ih (fun hm => hi (List.mem_cons_of_mem w hm)) hu]
    exact watchdogTask_other (fun hw => hi (hw ▸ List.mem_cons_self)) hq

/-- The counters of a task after its own visit. -/
def visited (t : Task) : Task :=
  if watchdogTimesOut t then { watchdogCount t with watchdogCounter := 0 } else watchdogCount t

theorem visited_dead {t : Task} (h : t.state = .dead) : visited t = t := by
  simp [visited, watchdogTimesOut, watchdogCount, h]

/-- The visit of the task itself; a slot past the table is empty. -/
theorem watchdogTask_self {i : TaskIndex} (hi : (s.tasks i).state ≠ .dead → i.val < s.taskCount)
    (h : watchdogTask P s i = .ok u) :
    counters (u.tasks i) = counters (visited (s.tasks i)) := by
  simp only [watchdogTask] at h
  split at h
  · rw [visited]
    split at h
    · rename_i hout
      rw [if_pos hout]
      obtain ⟨q, hq, hu⟩ := bind_eq_ok.mp h
      cases hu
      have hkept : counters (q.tasks i) = counters (watchdogCount (s.tasks i)) := by
        rw [(logged_respond_kept hq).tasks]
        simp
      simp only [clearWatchdog, setTask_tasks, Function.update_self]
      exact congrArg (fun t : Task => { t with watchdogCounter := 0 }) hkept
    · rename_i hlow
      rw [if_neg hlow]
      cases h
      simp
  · rename_i hout
    cases h
    rw [visited_dead (not_not.mp fun hd => hout (hi hd))]

/-- The indices before, at and after a task. -/
theorem finRange_split (i : TaskIndex) : ∃ after, List.finRange maxTasks =
    (List.finRange maxTasks).take i.val ++ i :: after ∧
      i ∉ (List.finRange maxTasks).take i.val ∧ i ∉ after := by
  have hlen : i.val < (List.finRange maxTasks).length := by
    rw [List.length_finRange]
    exact i.isLt
  have hsplit : List.finRange maxTasks =
      (List.finRange maxTasks).take i.val ++ i :: (List.finRange maxTasks).drop (i.val + 1) := by
    conv_lhs => rw [← List.take_append_drop i.val (List.finRange maxTasks)]
    rw [List.drop_eq_getElem_cons hlen, List.getElem_finRange]
    rfl
  have hnodup := List.nodup_finRange maxTasks
  rw [hsplit, List.nodup_append] at hnodup
  obtain ⟨-, hrest, hdisjoint⟩ := hnodup
  refine ⟨_, hsplit, ?_, (List.nodup_cons.mp hrest).1⟩
  intro hm
  exact hdisjoint i hm i List.mem_cons_self rfl

/-- The watchdog loop counts the task once, in the state in which it comes to it. -/
theorem watchdogPhase_visit {i : TaskIndex} (hs : TaskInv s) (h : watchdogPhase P s = .ok u) :
    ∃ x, run (watchdogLoop P) s ((List.finRange maxTasks).take i.val) = .ok x ∧
      counters (u.tasks i) = counters (visited (x.tasks i)) := by
  obtain ⟨after, hsplit, -, hafter⟩ := finRange_split i
  rw [watchdogPhase, hsplit] at h
  obtain ⟨x, hx, h⟩ := run_append_ok.mp h
  obtain ⟨q, hq, hu⟩ := run_cons_ok.mp h
  have hinv := watchdogRun_taskInv hs hx
  refine ⟨x, hx, ?_⟩
  rw [watchdogRun_other hafter hu]
  exact watchdogTask_self (fun hd => (hinv.created i hd).1) hq

/-! ## The budget phase and one task -/

theorem budgetPhase_other {i old : TaskIndex} (hi : i ≠ old) (h : budgetPhase P s old = .ok u) :
    counters (u.tasks i) = counters (s.tasks i) := by
  simp only [budgetPhase] at h
  split at h
  · split at h
    · rw [(logged_respond_kept h).tasks]
      exact counters_setTask_of_ne hi _
    · cases h
      exact counters_setTask_of_ne hi _
  · cases h
    rfl

/-- The charged task, with its account and whether it may still be selected. -/
theorem budgetPhase_self {old : TaskIndex} (hactive : budgetActive (s.tasks old) = true)
    (h : budgetPhase P s old = .ok u) :
    counters (u.tasks old) = counters (chargeTick (s.tasks old)) ∧
      (isSelectableByScheduler (u.tasks old).state = true →
        isSelectableByScheduler (chargeTick (s.tasks old)).state = true) := by
  simp only [budgetPhase, if_pos hactive] at h
  split at h
  · have hkept := (logged_respond_kept h).tasks old
    have hstop := (logged_respond_restrains h).selectable old
    simp only [setTask_tasks, Function.update_self] at hkept hstop
    exact ⟨hkept, hstop⟩
  · cases h
    simp

theorem budgetPhase_idle {old : TaskIndex} (hactive : budgetActive (s.tasks old) = false)
    (h : budgetPhase P s old = .ok u) : u = s := by
  simp only [budgetPhase, hactive, Bool.false_eq_true, if_false] at h
  exact (Except.ok.inj h).symm

/-! ## System calls and one task -/

theorem watchdogKick_counters (h : watchdogKick P s = .ok u) (i : TaskIndex) :
    counters (u.tasks i) =
      if i = s.currentTask ∧ i.val < s.taskCount then
        { counters (s.tasks i) with watchdogCounter := 0 }
      else counters (s.tasks i) := by
  rw [watchdogKick] at h
  split at h
  · rename_i hin
    obtain ⟨q, hq, hu⟩ := bind_eq_ok.mp h
    cases hu
    have hwindow := (checkKickWindow_kept hq).tasks
    by_cases hi : i = s.currentTask
    · subst hi
      rw [if_pos ⟨rfl, hin⟩]
      simp only [clearWatchdog, setTask_tasks, Function.update_self]
      exact congrArg (fun t : Task => { t with watchdogCounter := 0 }) (hwindow s.currentTask)
    · rw [if_neg fun hc => hi hc.1, clearWatchdog, counters_setTask_of_ne hi, hwindow]
  · rename_i hout
    cases h
    rw [if_neg]
    rintro ⟨rfl, hlt⟩
    exact hout hlt

theorem sysCapInvoke_account {cap resource action r : ℕ}
    (h : sysCapInvoke P s cap resource action = .ok (u, r)) :
    (∀ i, counters (u.tasks i) = counters (s.tasks i)) ∧ Restrains s u := by
  rw [sysCapInvoke] at h
  split at h
  · cases h
    exact ⟨fun _ => rfl, .refl _⟩
  · split at h
    · cases h
      exact ⟨fun _ => rfl, .refl _⟩
    · obtain ⟨q, hq, h⟩ := bind_eq_ok.mp h
      cases h
      simp only [recordCapResult] at hq
      split at hq
      · cases hq
        exact ⟨fun _ => rfl, restrains_of_tasks rfl rfl⟩
      · split at hq
        · have hcount : Restrains s { s with
              capFailCount := Function.update s.capFailCount s.currentTask 0 } :=
            restrains_of_tasks rfl rfl
          exact ⟨(logged_respond_kept hq).tasks, hcount.trans (logged_respond_restrains hq)⟩
        · cases hq
          exact ⟨fun _ => rfl, restrains_of_tasks rfl rfl⟩

theorem ipcFrame_restrains {s u : Sys} (h : IpcFrame s u) : Restrains s u := by
  have hstate := h.field Task.state fun _ => rfl
  have hbudget := h.field Task.budgetCycles fun _ => rfl
  obtain ⟨⟨tasks, pool, mem, rfl⟩, -⟩ := h
  exact ⟨rfl, fun i hsel => hstate i ▸ hsel, fun i => (hbudget i).le⟩

/-- A send raises at most the send counter of the caller. -/
theorem sysIpcSend_kept (P : Platform) (s : Sys) (channelId msgPtr : ℕ) (i : TaskIndex) :
    counters ((sysIpcSend P s channelId msgPtr).1.tasks i) = counters (s.tasks i) ∨
      i = s.currentTask ∧ counters ((sysIpcSend P s channelId msgPtr).1.tasks i) =
        { counters (s.tasks i) with ipcSendCount := wrappingAdd32 (s.tasks i).ipcSendCount 1 } := by
  have hinc : counters ((incrementIpcSend s).tasks i) = counters (s.tasks i) ∨
      i = s.currentTask ∧ counters ((incrementIpcSend s).tasks i) =
        { counters (s.tasks i) with
          ipcSendCount := wrappingAdd32 (s.tasks i).ipcSendCount 1 } := by
    rw [incrementIpcSend]
    split
    · by_cases hi : i = s.currentTask
      · subst hi
        exact Or.inr ⟨rfl, by simp [counters, Sys.current]⟩
      · exact Or.inl (counters_setTask_of_ne hi _)
    · exact Or.inl rfl
  simp only [sysIpcSend]
  repeat' split
  all_goals first
    | exact Or.inl rfl
    | exact hinc

theorem sysIpcRecv_tasks (P : Platform) (s : Sys) (channelId bufPtr : ℕ) :
    (sysIpcRecv P s channelId bufPtr).1.tasks = s.tasks ∧
      (sysIpcRecv P s channelId bufPtr).1.taskCount = s.taskCount := by
  obtain ⟨pool, mem, hrest⟩ := sysIpcRecv_rest P s channelId bufPtr
  rw [hrest]
  exact ⟨rfl, rfl⟩

/-- A numbered call that is neither a kick nor a send leaves every account alone. -/
theorem syscallTable_account {syscallId arg0 arg1 arg2 : ℕ} {r : Option ℕ}
    (hyield : syscallId ≠ sysYieldId) (hsend : syscallId ≠ sysIpcSendId)
    (h : syscallTable P s syscallId arg0 arg1 arg2 = .ok (u, r)) :
    (∀ i, counters (u.tasks i) = counters (s.tasks i)) ∧ Restrains s u := by
  simp only [syscallTable] at h
  split at h
  · obtain ⟨⟨w, x⟩, hw, h⟩ := bind_eq_ok.mp h
    cases h
    exact sysCapInvoke_account hw
  · exact absurd rfl hsend
  · cases h
    obtain ⟨htasks, hcount⟩ := sysIpcRecv_tasks P s arg0 arg1
    constructor
    · intro i
      rw [htasks]
    · exact restrains_of_tasks hcount htasks
  · exact absurd rfl hyield
  · cases h
    exact ⟨fun _ => rfl, .refl _⟩
  · obtain ⟨q, hq, h⟩ := bind_eq_ok.mp h
    obtain ⟨⟨w, flow⟩, hw, h⟩ := bind_eq_ok.mp h
    obtain ⟨rfl, -⟩ := okUnlessStarted_eq (Except.ok.inj h)
    exact ⟨((isolateTask_kept hq).trans (scheduleYield_kept hw)).tasks,
      (isolateTask_restrains hq).trans (scheduleYield_restrains hw)⟩
  · cases h

/-! ## The trap -/

theorem faultTrap_restrains {mcause syscallId arg0 arg1 arg2 : ℕ} {r : Option ℕ}
    (hno : ¬ (mcause = 8 ∨ mcause = 11))
    (h : exceptionTrap P s mcause syscallId arg0 arg1 arg2 = .ok (u, r)) : Restrains s u := by
  have hlog : ∀ kind recordId, Restrains s (s.log kind recordId []) :=
    fun _ _ => restrains_of_tasks rfl rfl
  simp only [exceptionTrap] at h
  split at h
  case h_1 | h_2 => exact absurd (by simp) hno
  case h_3 | h_4 | h_5 | h_6 | h_7 =>
    obtain ⟨q, hq, h⟩ := bind_eq_ok.mp h
    cases h
    exact (hlog _ _).trans (handleTaskFault_restrains hq)
  case h_8 | h_9 =>
    obtain ⟨q, hq, h⟩ := bind_eq_ok.mp h
    cases h
    rw [respondToAccessFault] at hq
    split at hq
    · exact logged_respond_restrains hq
    · exact (hlog _ _).trans (handleTaskFault_restrains hq)
  all_goals cases h

/-- The current task calls `SYS_IPC_SEND`. -/
def SendCall (e : TrapEvent) : Prop := IsEcall e.mcause ∧ e.regs .a7 = sysIpcSendId

instance (e : TrapEvent) : Decidable (SendCall e) := inferInstanceAs (Decidable (_ ∧ _))

theorem periodTask_visitAccount (t : Task) : visitAccount (periodTask t) = visitAccount t := by
  rw [periodTask]
  split
  · dsimp only
    split <;> rfl
  · rfl

theorem recoverTask_visitAccount (t : Task) : visitAccount (recoverTask t) = visitAccount t := by
  rw [recoverTask]
  split <;> rfl

/-- Counting periods and recovering leave the counters of the watchdog loop alone. -/
theorem beforeWatchdog_visitAccount (x : Sys) (i : TaskIndex) :
    visitAccount ((tryRecoverFromDegrade (periodPhase x)).tasks i) = visitAccount (x.tasks i) := by
  have hperiod : visitAccount ((periodPhase x).tasks i) = visitAccount (x.tasks i) := by
    simp only [periodPhase]
    split
    · exact periodTask_visitAccount _
    · rfl
  rw [tryRecoverFromDegrade]
  split
  · simp only [log_tasks]
    split
    · exact (recoverTask_visitAccount _).trans hperiod
    · exact hperiod
  · exact hperiod

/-- A tick passes through its points in this order. -/
structure Ticks (P : Platform) (s : Sys) (e : TrapEvent) (x b q v : Sys) : Prop where
  timer : IsTimer e.mcause
  period : periodPoint P s e = some x
  entry : ∀ i, counters (x.tasks i) = counters (s.tasks i)
  entryRestrains : Restrains s x
  watchdog : watchdogPhase P (tryRecoverFromDegrade (periodPhase x)) = .ok b
  budget : budgetPhase P b b.currentTask = .ok q
  exit : ∀ i, counters (v.tasks i) = counters (q.tasks i)
  exitRestrains : Restrains q v

/-- What a trap does to the accounts of the tasks. -/
inductive Effect (P : Platform) (s : Sys) (e : TrapEvent) (v : Sys) : Prop where
  | tick {x b q} : Ticks P s e x b q v → Effect P s e v
  | kick : YieldCall e → Restrains s v →
      (∀ i, counters (v.tasks i) =
        if i = s.currentTask ∧ i.val < s.taskCount then
          { counters (s.tasks i) with watchdogCounter := 0 }
        else counters (s.tasks i)) → Effect P s e v
  | send {u args} : SendCall e → Restrains s v → enterHandler P s e = .ok (u, args) →
      (∀ i, counters (v.tasks i) =
        counters ((sysIpcSend P (incrementSyscallCount u) (e.regs .a0) (e.regs .a1)).1.tasks i)) →
      Effect P s e v
  | other : ¬ YieldCall e → ¬ SendCall e → periodPoint P s e = none → Restrains s v →
      (∀ i, counters (v.tasks i) = counters (s.tasks i)) → Effect P s e v

/-- A call that returned hands its result on; stated for any call, so that the kernel does not
evaluate the one at hand. -/
theorem toOption_bind {α β : Type} {x : Except Halt α} {a : α} (h : x = .ok a)
    (f : α → Option β) : (x.toOption >>= f) = f a := by
  subst h
  rfl

theorem toOption_some {α : Type} {x : Except Halt α} {a : α} : x.toOption = some a ↔ x = .ok a := by
  cases x with
  | error => simp [Except.toOption]
  | ok b => simp [Except.toOption]

theorem tickEntry_some {e : TrapEvent} (h : tickEntry P s e = some v) :
    IsTimer e.mcause ∧ v.taskCount ≠ 0 ∧ ∃ u args, enterHandler P s e = .ok (u, args) ∧
      deadlinePhase P u e.mtime = .ok v := by
  rw [tickEntry] at h
  split at h
  · rename_i ht
    obtain ⟨⟨u, args⟩, hu, h⟩ := Option.bind_eq_some_iff.mp h
    obtain ⟨y, hy, h⟩ := Option.bind_eq_some_iff.mp h
    split at h
    · cases h
    · rename_i hsome
      cases h
      exact ⟨ht, hsome, u, args, toOption_some.mp hu, toOption_some.mp hy⟩
  · cases h

theorem tickEntry_eq {e : TrapEvent} {args : Reg → ℕ} (ht : IsTimer e.mcause)
    (hu : enterHandler P s e = .ok (u, args)) (hv : deadlinePhase P u e.mtime = .ok v) :
    tickEntry P s e = if v.taskCount = 0 then none else some v := by
  rw [tickEntry, if_pos ht, toOption_bind hu]
  exact toOption_bind hv _

/-- The watchdog loop starts on the counters of the task and on a table in order. -/
theorem watchdogPoint_some {e : TrapEvent} (h : watchdogPoint P s e = some v) :
    (∀ i, visitAccount (v.tasks i) = visitAccount (s.tasks i)) ∧ (TaskInv s → TaskInv v) := by
  obtain ⟨x, hx, rfl⟩ := Option.map_eq_some_iff.mp h
  obtain ⟨y, hy, hxy⟩ := Option.bind_eq_some_iff.mp hx
  obtain rfl := pmpIntegrityPhase_ok (toOption_some.mp hxy)
  obtain ⟨-, -, u, args, hu, hdeadline⟩ := tickEntry_some hy
  constructor
  · intro i
    have hentry : counters (y.tasks i) = counters (s.tasks i) :=
      ((entered_kept hu).trans (deadlinePhase_kept hdeadline)).tasks i
    exact (beforeWatchdog_visitAccount _ i).trans
      (view_field hentry visitAccount fun _ => rfl)
  · intro hs
    have hentered := taskInv_sameKernel (entered_sameKernel hu) hs
    have hy' := taskInv_evolves (deadlinePhase_evolves hentered.currentAlive hdeadline).1 hentered
    have hsame : SameKernel y { y with blackbox := y.blackbox.advanceTick } :=
      ⟨rfl, rfl, rfl, rfl, rfl⟩
    have hadvanced := taskInv_sameKernel hsame hy'
    exact taskInv_evolves ((periodPhase_evolves _).trans (tryRecoverFromDegrade_evolves _)) hadvanced

/-- The loop comes to the task with the counters of the task as they were. -/
theorem visitPoint_some {i : TaskIndex} {e : TrapEvent} (h : visitPoint P i s e = some v) :
    visitAccount (v.tasks i) = visitAccount (s.tasks i) ∧ (TaskInv s → TaskInv v) := by
  obtain ⟨z, hz, hv⟩ := Option.bind_eq_some_iff.mp h
  obtain ⟨haccount, hinv⟩ := watchdogPoint_some hz
  have hrun := toOption_some.mp hv
  obtain ⟨-, -, hbefore, -⟩ := finRange_split i
  constructor
  · rw [← haccount i]
    exact view_field (watchdogRun_other hbefore hrun) visitAccount fun _ => rfl
  · intro hs
    exact watchdogRun_taskInv (hinv hs) hrun

theorem periodPoint_none {e : TrapEvent} (h : ¬ IsTimer e.mcause) : periodPoint P s e = none := by
  rw [periodPoint, tickEntry, if_neg h]
  rfl

section

variable {e : TrapEvent} {args : Reg → ℕ} {r : Option ℕ}

theorem entered_restrains (hu : enterHandler P s e = .ok (u, args)) : Restrains s u := by
  have hsame := entered_sameKernel hu
  exact restrains_of_tasks hsame.taskCount hsame.tasks

theorem leaveHandler_restrains (P : Platform) (s : Sys) (r : Option ℕ) :
    Restrains s (leaveHandler P (s, r)) := by
  have hsame := leaveHandler_sameKernel P s r
  exact restrains_of_tasks hsame.taskCount hsame.tasks

theorem timer_effect (ht : IsTimer e.mcause) (hu : enterHandler P s e = .ok (u, args))
    (h : timerInterrupt P u e.mtime = .ok (v, r)) : Effect P s e (leaveHandler P (v, r)) := by
  have hnoCall : ∀ k, ¬ (IsEcall e.mcause ∧ e.regs .a7 = k) := by
    intro k hc
    exact ecall_not_timer hc.1 ht
  have hleave := (leaveHandler_kept (f := counters) P v r).tasks
  have hleaveRestrains := leaveHandler_restrains P v r
  rw [timerInterrupt] at h
  obtain ⟨y, hy, h⟩ := bind_eq_ok.mp h
  obtain ⟨⟨w, flow⟩, hw, h⟩ := bind_eq_ok.mp h
  obtain ⟨rfl, -⟩ := answerZeroUnlessStarted_eq (Except.ok.inj h)
  have hentered : Restrains s y := (entered_restrains hu).trans (deadlinePhase_restrains hy)
  have hcounters : ∀ i, counters (y.tasks i) = counters (s.tasks i) :=
    ((entered_kept hu).trans (deadlinePhase_kept hy)).tasks
  have hentry := tickEntry_eq ht hu hy
  rw [scheduleTimerTick] at hw
  split at hw
  · rename_i hnone
    cases hw
    rw [if_pos hnone] at hentry
    apply Effect.other (hnoCall _) (hnoCall _) _ (hentered.trans hleaveRestrains)
    · intro i
      exact (hleave i).trans (hcounters i)
    · rw [periodPoint, hentry]
      rfl
  · rename_i hsome
    rw [if_neg hsome] at hentry
    obtain ⟨q, hphases, hw⟩ := bind_eq_ok.mp hw
    rw [tickPhases] at hphases
    obtain ⟨z, hz, hphases⟩ := bind_eq_ok.mp hphases
    obtain ⟨b, hb, hq⟩ := bind_eq_ok.mp hphases
    rw [tickBeforeWatchdog] at hz
    obtain ⟨x, hx, hz⟩ := bind_eq_ok.mp hz
    cases hz
    have hxy := pmpIntegrityPhase_ok hx
    have hcurrent : b.currentTask = y.currentTask := by
      rw [(watchdogPhase_evolves hb).currentTask, (tryRecoverFromDegrade_evolves _).currentTask,
        (periodPhase_evolves _).currentTask, hxy]
    refine .tick (x := x) (b := b) (q := q) ⟨ht, ?_, ?_, ?_, hb, hcurrent ▸ hq, ?_, ?_⟩
    · rw [periodPoint, hentry, Option.bind_some, hx]
      rfl
    · intro i
      rw [hxy]
      exact hcounters i
    · rw [hxy]
      exact hentered.trans (restrains_of_tasks rfl rfl)
    · intro i
      exact (hleave i).trans ((select_kept hw).tasks i)
    · exact (select_restrains hw).trans hleaveRestrains

theorem syscall_effect (he : IsEcall e.mcause) (hu : enterHandler P s e = .ok (u, args))
    (h : dispatch P u (e.regs .a7) (e.regs .a0) (e.regs .a1) (e.regs .a2) = .ok (v, r)) :
    Effect P s e (leaveHandler P (v, r)) := by
  have hleave := (leaveHandler_kept (f := counters) P v r).tasks
  have hleaveRestrains := leaveHandler_restrains P v r
  have hsame := entered_sameKernel hu
  have hentered := entered_restrains hu
  have hpoint : periodPoint P s e = none := periodPoint_none (ecall_not_timer he)
  have hcounted : ∀ i, counters ((incrementSyscallCount u).tasks i) = counters (s.tasks i) :=
    ((entered_kept hu).trans (incrementSyscallCount_kept u)).tasks
  have hcountedRestrains := hentered.trans (ipcFrame_restrains (incrementSyscallCount_frame u))
  by_cases hid : e.regs .a7 < syscallCount
  · obtain ⟨x, hx⟩ := dispatch_served hid h
    by_cases hyield : e.regs .a7 = sysYieldId
    · rw [hyield] at hx
      obtain ⟨q, hq, hx⟩ := bind_eq_ok.mp hx
      obtain ⟨⟨w, flow⟩, hw, hx⟩ := bind_eq_ok.mp hx
      obtain ⟨rfl, -⟩ := okUnlessStarted_eq (Except.ok.inj hx)
      have hrestrains := (hcountedRestrains.trans (watchdogKick_restrains hq)).trans
        (scheduleYield_restrains hw)
      apply Effect.kick ⟨he, hyield⟩ (hrestrains.trans hleaveRestrains)
      intro i
      have hkick := watchdogKick_counters hq i
      rw [(incrementSyscallCount_frame u).currentTask, hsame.currentTask,
        (incrementSyscallCount_frame u).taskCount, hsame.taskCount, hcounted] at hkick
      exact ((hleave i).trans ((scheduleYield_kept hw).tasks i)).trans hkick
    · by_cases hsend : e.regs .a7 = sysIpcSendId
      · rw [hsend] at hx
        cases hx
        have hrestrains := hcountedRestrains.trans (ipcFrame_restrains
          (sysIpcSend_frame P (incrementSyscallCount u) (e.regs .a0) (e.regs .a1)))
        exact .send ⟨he, hsend⟩ (hrestrains.trans hleaveRestrains) hu hleave
      · obtain ⟨hkept, hrestrains⟩ := syscallTable_account hyield hsend hx
        apply Effect.other (fun hy => hyield hy.2) (fun hs => hsend hs.2) hpoint
          ((hcountedRestrains.trans hrestrains).trans hleaveRestrains)
        intro i
        exact ((hleave i).trans (hkept i)).trans (hcounted i)
  · rw [dispatch, if_pos (by omega)] at h
    cases h
    apply Effect.other _ _ hpoint (hentered.trans hleaveRestrains)
    · intro i
      exact (hleave i).trans ((entered_kept hu).tasks i)
    · intro hy
      apply hid
      rw [hy.2]
      decide
    · intro hs
      apply hid
      rw [hs.2]
      decide

theorem trap_effect (h : trap P s e = .ok v) : Effect P s e v := by
  obtain ⟨u, args, w, r, hu, hw, rfl⟩ := trap_handled h
  have hentered := entered_restrains hu
  have hleft := leaveHandler_restrains P w r
  cases hw with
  | timer ht hrun => exact timer_effect ht hu hrun
  | syscall he hd => exact syscall_effect he hu hd
  | fault hf hx =>
    refine .other (fun hy => hf.2 hy.1.2) (fun hs => hf.2 hs.1.2)
      (periodPoint_none fun ht => ht.1 hf.1)
      ((hentered.trans (faultTrap_restrains hf.2 hx)).trans hleft) ?_
    exact (((entered_kept hu).trans (faultTrap_kept hf.2 hx)).trans (leaveHandler_kept P w r)).tasks
  | ignored ht he hsame =>
    subst hsame
    exact .other (fun hy => he hy.1) (fun hs => he hs.1) (periodPoint_none ht)
      (hentered.trans hleft) ((entered_kept hu).trans (leaveHandler_kept P w r)).tasks

/-- A kick leaves everything but the watchdog counter alone. -/
theorem kicked_field {α : Type*} {i : TaskIndex} {c : Prop} [Decidable c]
    (hv : counters (v.tasks i) =
      if c then { counters (s.tasks i) with watchdogCounter := 0 } else counters (s.tasks i))
    (g : Task → α) (hg : ∀ t, g (counters t) = g t)
    (hkick : ∀ t, g { t with watchdogCounter := 0 } = g t) : g (v.tasks i) = g (s.tasks i) := by
  rw [← hg, hv]
  split
  · rw [hkick, hg]
  · exact hg _

/-- A send leaves everything but the send counter alone. -/
theorem sent_field {α : Type*} {i : TaskIndex} (hu : enterHandler P s e = .ok (u, args))
    (hv : counters (v.tasks i) =
      counters ((sysIpcSend P (incrementSyscallCount u) (e.regs .a0) (e.regs .a1)).1.tasks i))
    (g : Task → α) (hg : ∀ t, g (counters t) = g t)
    (hsends : ∀ t n, g { t with ipcSendCount := n } = g t) : g (v.tasks i) = g (s.tasks i) := by
  have hentered : counters ((incrementSyscallCount u).tasks i) = counters (s.tasks i) :=
    ((entered_kept hu).trans (incrementSyscallCount_kept u)).tasks i
  rw [view_field hv g hg, ← view_field hentered g hg]
  rcases sysIpcSend_kept P (incrementSyscallCount u) (e.regs .a0) (e.regs .a1) i with
    hsame | ⟨-, hsent⟩
  · exact view_field hsame g hg
  · rw [← hg, hsent, hsends, hg]

/-- Between ticks no account of a budget moves and nobody is woken. -/
theorem trap_tick_or_idle (h : trap P s e = .ok v) :
    (∃ x b q, Ticks P s e x b q v) ∨
      (periodPoint P s e = none ∧ Restrains s v ∧
        ∀ i, budgetAccount (v.tasks i) = budgetAccount (s.tasks i)) := by
  cases trap_effect h with
  | tick ht => exact Or.inl ⟨_, _, _, ht⟩
  | kick hy hr hcounters =>
    exact Or.inr ⟨periodPoint_none (ecall_not_timer hy.1), hr, fun i =>
      kicked_field (hcounters i) budgetAccount (fun _ => rfl) fun _ => rfl⟩
  | send hs hr hu hcounters =>
    exact Or.inr ⟨periodPoint_none (ecall_not_timer hs.1), hr, fun i =>
      sent_field hu (hcounters i) budgetAccount (fun _ => rfl) fun _ _ => rfl⟩
  | other _ _ hpoint hr hcounters =>
    exact Or.inr ⟨hpoint, hr, fun i => view_field (hcounters i) budgetAccount fun _ => rfl⟩

theorem budgetPoint_none (h : periodPoint P s e = none) : budgetPoint P s e = none := by
  rw [budgetPoint, watchdogPoint, h]
  rfl

theorem visitPoint_none {i : TaskIndex} (h : periodPoint P s e = none) :
    visitPoint P i s e = none := by
  rw [visitPoint, watchdogPoint, h]
  rfl

variable {x b q : Sys}

theorem Ticks.budgetPoint_eq (h : Ticks P s e x b q v) : budgetPoint P s e = some b := by
  rw [budgetPoint, watchdogPoint, h.period, Option.map_some, Option.bind_some, h.watchdog]
  rfl

theorem chargeTick_visitAccount (t : Task) : visitAccount (chargeTick t) = visitAccount t := by
  have hset : ∀ (remaining : ℕ) (state : TaskState),
      visitAccount { t with remainingCycles := remaining, state := state } = visitAccount t :=
    fun _ _ => rfl
  exact hset _ _

theorem budgetPhase_visitAccount {old i : TaskIndex} (h : budgetPhase P s old = .ok v) :
    visitAccount (v.tasks i) = visitAccount (s.tasks i) := by
  by_cases hi : i = old
  · subst hi
    cases hactive : budgetActive (s.tasks i) with
    | true =>
      exact (view_field (budgetPhase_self hactive h).1 visitAccount fun _ => rfl).trans
        (chargeTick_visitAccount _)
    | false => rw [budgetPhase_idle hactive h]
  · exact view_field (budgetPhase_other hi h) visitAccount fun _ => rfl

/-- After a tick the counters are those of the visit. -/
theorem Ticks.visit (h : Ticks P s e x b q v) (hs : TaskInv s) (i : TaskIndex) :
    ∃ y, visitPoint P i s e = some y ∧
      visitAccount (v.tasks i) = visitAccount (visited (y.tasks i)) := by
  have hpoint : watchdogPoint P s e = some (tryRecoverFromDegrade (periodPhase x)) := by
    rw [watchdogPoint, h.period, Option.map_some]
  have hinv := (watchdogPoint_some hpoint).2 hs
  obtain ⟨y, hy, hvisited⟩ := watchdogPhase_visit (i := i) hinv h.watchdog
  refine ⟨y, ?_, ?_⟩
  · rw [visitPoint, hpoint, Option.bind_some, hy]
    rfl
  · rw [view_field (h.exit i) visitAccount fun _ => rfl, budgetPhase_visitAccount h.budget]
    exact view_field hvisited visitAccount fun _ => rfl

end

end

end KernelAccounting
