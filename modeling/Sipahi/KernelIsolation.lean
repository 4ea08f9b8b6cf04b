import Sipahi.KernelRunningTask

/-!
# Who is isolated, and for what

Only the task that a trap interrupts can be isolated by it, and only for something it did: it left,
it faulted once too often, it kept asking for what it may not have, or its level does not allow the
deadline to be missed.
-/
namespace KernelIsolation

open KernelTypes KernelPolicy KernelState KernelTrapFrame KernelScheduler KernelSyscall KernelTrap
open KernelHandlers KernelEvolution KernelSelection KernelBoot KernelTaskInvariants
open KernelRunningTask KernelReference RiscvHart GuardedExecution

/-- The current task is isolated if there is cause, and no other task is. -/
def IsolatesFor (s u : Sys) (cause : Prop) : Prop :=
  ∀ i, (u.tasks i).state = .isolated ↔
    (s.tasks i).state = .isolated ∨ (i = s.currentTask ∧ cause)

/-- The same of a step that hands the CPU to nobody. -/
structure Isolates (s u : Sys) (cause : Prop) : Prop where
  currentTask : u.currentTask = s.currentTask
  isolated : IsolatesFor s u cause

section

variable {P : Platform} {s u v w : Sys} {p q : Prop}

theorem Isolates.refl (s : Sys) : Isolates s s False := ⟨rfl, fun _ => by simp⟩

theorem Isolates.trans (a : Isolates s u p) (b : Isolates u v q) : Isolates s v (p ∨ q) := by
  refine ⟨b.currentTask.trans a.currentTask, fun i => ?_⟩
  rw [b.isolated, a.isolated, a.currentTask, and_or_left, or_assoc]

theorem Isolates.congr (h : Isolates s u p) (hpq : p ↔ q) : Isolates s u q :=
  ⟨h.currentTask, fun i => by rw [h.isolated, hpq]⟩

theorem isolates_nobody (hc : u.currentTask = s.currentTask)
    (h : ∀ i, (u.tasks i).state = .isolated ↔ (s.tasks i).state = .isolated) :
    Isolates s u False :=
  ⟨hc, fun i => by rw [h]; simp⟩

theorem statesKept_isolates (h : StatesKept s u) : Isolates s u False :=
  isolates_nobody h.currentTask fun i => by rw [h.states]

/-- A step without a cause in front of one that has its own. -/
theorem Isolates.after (a : Isolates s u False) (b : Isolates u v q) : Isolates s v q :=
  (a.trans b).congr (by simp)

theorem Isolates.before (a : Isolates s u p) (b : Isolates u v False) : Isolates s v p :=
  (a.trans b).congr (by simp)

/-- What an evolution stops or wakes it does not isolate. -/
theorem evolves_isolates (he : Evolves s u)
    (h : ∀ i, (u.tasks i).state = .isolated → (s.tasks i).state = .isolated) :
    Isolates s u False :=
  isolates_nobody he.currentTask fun i => ⟨h i, he.isolated i⟩

/-! ## The policy -/

theorem degradeSystem_spares (s : Sys) (i : TaskIndex)
    (h : ((degradeSystem s).tasks i).state = .isolated) : (s.tasks i).state = .isolated := by
  rcases degradeSystem_task s i with hst | ⟨-, hst⟩
  · rwa [hst] at h
  · rw [hst] at h
    cases h

theorem acts_spares {mode : FailureMode} {id : TaskIndex} (hmode : mode ≠ .isolate)
    (h : Acts P s id mode u) (i : TaskIndex) (hu : (u.tasks i).state = .isolated) :
    (s.tasks i).state = .isolated := by
  cases mode with
  | restart =>
    obtain rfl : u = restartTask P s id := h
    rwa [restartTask_tasks] at hu
  | degrade | failover =>
    obtain rfl : u = degradeSystem s := h
    exact degradeSystem_spares s i hu
  | alert =>
    obtain rfl : u = s := h
    exact hu
  | isolate => exact absurd rfl hmode
  | shutdown => exact h.elim

theorem respond_spares {id : TaskIndex} {taskId dal : ℕ} {event : PolicyEvent}
    (ha : answer s taskId event dal ≠ .isolate) (h : respond P s id taskId event dal = .ok u)
    (i : TaskIndex) (hu : (u.tasks i).state = .isolated) : (s.tasks i).state = .isolated := by
  obtain ⟨q, hq, hacts⟩ := respond_acts h
  rw [← hq.tasks]
  exact acts_spares ha hacts i hu

theorem markIsolated_isolates (hin : s.currentTask.val < s.taskCount) :
    Isolates s (markIsolated s s.currentTask) True := by
  rw [markIsolated, if_pos hin]
  refine ⟨rfl, fun i => ?_⟩
  by_cases hi : i = s.currentTask
  · simp [hi]
  · simp [hi]

/-- The answer to an event of the current task. -/
theorem respond_isolates {taskId dal : ℕ} {event : PolicyEvent} (hi : TaskInv s)
    (h : respond P s s.currentTask taskId event dal = .ok u) :
    Isolates s u (answer s taskId event dal = .isolate) := by
  by_cases ha : answer s taskId event dal = .isolate
  · obtain ⟨q, hq, hacts⟩ := respond_acts h
    rw [ha, ← hq.currentTask] at hacts
    obtain ⟨rfl, -⟩ := isolateTask_ok (show isolateTask q q.currentTask = .ok u from hacts)
    have hmark := markIsolated_isolates (s := q) (by
      rw [hq.currentTask, hq.taskCount]
      exact current_inTable hi)
    have hnone := statesKept_isolates (statesKept_of_tasks hq.currentTask hq.tasks)
    exact (hnone.after hmark).congr (by simp [ha])
  · have he := respond_evolves (.inl rfl) hi.currentAlive h
    exact (evolves_isolates he (respond_spares ha h)).congr (by simp [ha])

theorem logged_respond_isolates {taskId dal recordId : ℕ} {event : PolicyEvent}
    {record : KernelBlackbox.BlackboxEvent} {data : List UInt8} (hi : TaskInv s)
    (h : respond P (s.log record recordId data) s.currentTask taskId event dal = .ok u) :
    Isolates s u (answer s taskId event dal = .isolate) := by
  have hann := (Annotated.refl s).log record recordId data
  have hlog := statesKept_isolates (statesKept_of_tasks hann.currentTask hann.tasks)
  exact hlog.after (respond_isolates (taskInv_evolves hann.evolves hi) h)

theorem fault_isolates {dal : ℕ} {event : PolicyEvent} (i : TaskIndex)
    (he : event = .taskFault ∨ event = .stackOverflow) :
    answer s i.val event dal = .isolate ↔ maxRestartFault ≤ s.restartCounts i := by
  rcases he with rfl | rfl
  all_goals
    simp only [answer, PolicyEvent.code, decideAction, restartCountOf_val]
    split
    · simp
      omega
    · simp
      omega

theorem deadline_isolates {taskId dal : ℕ} :
    answer s taskId .deadlineMiss dal = .isolate ↔ 3 ≤ dal := by
  simp only [answer, PolicyEvent.code, decideAction]
  split
  · simp
  · simp
  · simp
  · simp only [imp_false, true_iff] at *
    omega

/-! ## The phases of a tick -/

theorem watchdogTask_spares {id : TaskIndex} (h : watchdogTask P s id = .ok u) (i : TaskIndex)
    (hu : (u.tasks i).state = .isolated) : (s.tasks i).state = .isolated := by
  have hcount : StatesKept s (s.setTask id (watchdogCount (s.tasks id))) :=
    setTask_statesKept (watchdogCount_state _)
  simp only [watchdogTask] at h
  split at h
  · split at h
    · obtain ⟨q, hq, h⟩ := bind_eq_ok.mp h
      cases h
      have hclear : StatesKept q (clearWatchdog q id) := setTask_statesKept rfl
      rw [hclear.states] at hu
      rw [← hcount.states]
      refine respond_spares ?_ hq i hu
      intro hiso
      rcases watchdog_answer _ _ _ with ha | ha
      · rw [ha] at hiso
        cases hiso
      · rw [ha] at hiso
        cases hiso
    · cases h
      rwa [hcount.states] at hu
  · cases h
    exact hu

theorem watchdogPhase_spares (h : watchdogPhase P s = .ok u) (i : TaskIndex)
    (hu : (u.tasks i).state = .isolated) : (s.tasks i).state = .isolated := by
  have hrun : (u.tasks i).state = .isolated → (s.tasks i).state = .isolated :=
    run_keeps (M := watchdogLoop P)
      (I := fun x => (x.tasks i).state = .isolated → (s.tasks i).state = .isolated)
      (fun _ _ _ hx hstep hy => hx (watchdogTask_spares hstep i hy)) id h
  exact hrun hu

theorem budget_spares {taskId dal : ℕ} : answer s taskId .budgetExhausted dal ≠ .isolate := by
  simp only [answer, PolicyEvent.code, decideAction]
  split <;> simp

theorem chargeTick_spares {t : Task} (h : budgetActive t = true) :
    (chargeTick t).state ≠ .isolated := by
  rcases chargeTick_state (budgetActive_running h) with k | k <;> simp [k]

theorem budgetPhase_spares {old : TaskIndex} (h : budgetPhase P s old = .ok u) (i : TaskIndex)
    (hu : (u.tasks i).state = .isolated) : (s.tasks i).state = .isolated := by
  simp only [budgetPhase] at h
  split at h
  · rename_i ha
    have hcharge : ((s.setTask old (chargeTick (s.tasks old))).tasks i).state = .isolated →
        (s.tasks i).state = .isolated := by
      intro hx
      by_cases hi : i = old
      · subst hi
        simp only [setTask_tasks, Function.update_self] at hx
        exact absurd hx (chargeTick_spares ha)
      · simpa [hi] using hx
    split at h
    · exact hcharge (respond_spares budget_spares h i hu)
    · cases h
      exact hcharge hu
  · cases h
    exact hu

theorem tickBeforeWatchdog_spares (h : tickBeforeWatchdog s = .ok u) (i : TaskIndex)
    (hu : (u.tasks i).state = .isolated) : (s.tasks i).state = .isolated := by
  have hperiod : ∀ x : Sys, ((periodPhase x).tasks i).state = .isolated →
      (x.tasks i).state = .isolated := by
    intro x hx
    simp only [periodPhase] at hx
    split at hx
    · rcases periodTask_state (x.tasks i) with k | ⟨-, k⟩
      · rwa [k] at hx
      · rw [k] at hx
        cases hx
    · exact hx
  have hrecover : ∀ x : Sys, ((tryRecoverFromDegrade x).tasks i).state = .isolated →
      (x.tasks i).state = .isolated := by
    intro x hx
    rw [tryRecoverFromDegrade] at hx
    split at hx
    · simp only [log_tasks] at hx
      split at hx
      · rcases recoverTask_state (x.tasks i) with k | ⟨-, k⟩
        · rwa [k] at hx
        · rw [k] at hx
          cases hx
      · exact hx
    · exact hx
  rw [tickBeforeWatchdog_ok h] at hu
  have hs := hperiod _ (hrecover _ hu)
  exact hs

theorem tickPhases_isolates (h : tickPhases P s = .ok u) : Isolates s u False := by
  have he := tickPhases_evolves h
  rw [tickPhases] at h
  obtain ⟨q, hq, h⟩ := bind_eq_ok.mp h
  obtain ⟨w, hw, h⟩ := bind_eq_ok.mp h
  refine evolves_isolates he fun i hu => ?_
  exact tickBeforeWatchdog_spares hq i (watchdogPhase_spares hw i (budgetPhase_spares h i hu))

theorem deadlinePhase_isolates {mtime : ℕ} (hi : TaskInv s)
    (h : deadlinePhase P s mtime = .ok u) :
    Isolates s u (deadlineMissed s mtime = true ∧ 3 ≤ s.current.dal) := by
  have hann : Annotated s (armNextTick s mtime) := ⟨rfl, rfl, rfl, rfl, rfl, rfl, rfl⟩
  have harm := statesKept_isolates (statesKept_of_tasks hann.currentTask hann.tasks)
  obtain ⟨-, h⟩ := deadlinePhase_ok.mp h
  simp only [answerDeadline] at h
  split at h
  · rename_i hmissed
    have hrespond := logged_respond_isolates (taskInv_evolves hann.evolves hi) h
    refine (harm.after hrespond).congr ?_
    rw [deadline_isolates]
    simp only [hmissed, true_and]
    rfl
  · rename_i hmet
    cases h
    exact harm.congr (by simp [hmet])

/-! ## System calls and faults -/

theorem handleTaskFault_isolates (hi : TaskInv s) (h : handleTaskFault P s = .ok u) :
    Isolates s u (maxRestartFault ≤ s.restartCounts s.currentTask) := by
  rw [handleTaskFault, if_pos (current_inTable hi)] at h
  exact (respond_isolates hi h).congr (fault_isolates _ (.inl rfl))

theorem watchdogKick_isolates (hc : s.current.state ≠ .dead) (h : watchdogKick P s = .ok u) :
    Isolates s u False := by
  have he := (watchdogKick_evolves hc h).1
  refine evolves_isolates he fun i hu => ?_
  rw [watchdogKick] at h
  split at h
  · obtain ⟨q, hq, h⟩ := bind_eq_ok.mp h
    cases h
    have hclear : StatesKept q (clearWatchdog q s.currentTask) := setTask_statesKept rfl
    rw [hclear.states] at hu
    simp only [checkKickWindow] at hq
    split at hq
    · refine respond_spares ?_ hq i hu
      intro hiso
      rcases watchdog_answer _ _ _ with ha | ha
      · rw [ha] at hiso
        cases hiso
      · rw [ha] at hiso
        cases hiso
    · cases hq
      exact hu
  · cases h
    exact hu

/-- The third refusal in a row. -/
theorem recordCapResult_isolates {ok : Bool} (hi : TaskInv s)
    (h : recordCapResult P s ok = .ok u) :
    Isolates s u (ok = false ∧ 2 ≤ s.capFailCount s.currentTask) := by
  have hcount : ∀ counts, Isolates s { s with capFailCount := counts } False :=
    fun _ => statesKept_isolates (statesKept_of_tasks rfl rfl)
  simp only [recordCapResult] at h
  split at h
  · rename_i hok
    cases h
    exact (hcount _).congr (by simp [hok])
  · rename_i hok
    split at h
    · rename_i hthree
      have hann : Annotated s { s with
          capFailCount := Function.update s.capFailCount s.currentTask 0 } :=
        ⟨rfl, rfl, rfl, rfl, rfl, rfl, rfl⟩
      have hrespond := logged_respond_isolates (taskInv_evolves hann.evolves hi) h
      refine ((hcount _).after hrespond).congr ?_
      simp only [saturatingAdd8, u8Max] at hthree
      simp only [answer, PolicyEvent.code, decideAction, true_iff]
      exact ⟨by simpa using hok, by omega⟩
    · rename_i hfew
      cases h
      refine (hcount _).congr ?_
      simp only [saturatingAdd8, u8Max] at hfew
      simp only [false_iff, not_and]
      intro _
      omega

theorem sysCapInvoke_isolates {cap resource action x : ℕ} (hi : TaskInv s)
    (h : sysCapInvoke P s cap resource action = .ok (u, x)) :
    Isolates s u (CapabilityRefused P s cap resource action ∧
      2 ≤ s.capFailCount s.currentTask) := by
  rw [sysCapInvoke] at h
  split at h
  · rename_i hrange
    cases h
    exact (Isolates.refl s).congr (by simp [CapabilityRefused, hrange])
  · rename_i hrange
    split at h
    · rename_i hnone
      cases h
      exact (Isolates.refl s).congr (by simp [CapabilityRefused, hnone])
    · rename_i ok hok
      obtain ⟨v, hv, h⟩ := bind_eq_ok.mp h
      cases h
      refine (recordCapResult_isolates hi hv).congr ?_
      simp [CapabilityRefused, hrange, hok]

/-- The context switch isolates nobody. -/
theorem select_spares {flow : Flow}
    (h : doPrioritySelectAndSwitch P s s.currentTask = .ok (u, flow)) (i : TaskIndex) :
    (u.tasks i).state = .isolated ↔ (s.tasks i).state = .isolated := by
  rcases select_cases h with ⟨-, rfl, -⟩ | ⟨next, ht, hs⟩
  · rfl
  · obtain ⟨-, hsel, -⟩ := switchTarget_some ht
    obtain ⟨pmp, rfl⟩ := hs.state
    exact handOver_isolated _ (selectable_not_isolated (selectNext_some hsel).1) i

theorem select_isolates {x : Sys} {flow : Flow} (h : Isolates s x p)
    (hselect : doPrioritySelectAndSwitch P x x.currentTask = .ok (w, flow)) :
    IsolatesFor s w p := by
  intro i
  rw [← h.isolated i]
  exact select_spares hselect i

theorem yield_isolates {x : Sys} {flow : Flow} (h : Isolates s x p)
    (hselect : scheduleYield P x = .ok (w, flow)) : IsolatesFor s w p := by
  rw [scheduleYield] at hselect
  split at hselect
  · cases hselect
    exact h.isolated
  · exact select_isolates h hselect

/-! ## Causes -/

/-- `SYS_EXIT`. -/
def Leaves (mcause syscallId : ℕ) : Prop := IsEcall mcause ∧ syscallId = sysExitId

/-- A fault of a task that has used up its restarts. -/
def FaultsAgain (s : Sys) (mcause : ℕ) : Prop :=
  IsFault mcause ∧ maxRestartFault ≤ s.restartCounts s.currentTask

/-- A refused capability after two that were refused. -/
def RefusedAgain (P : Platform) (s : Sys) (mcause syscallId arg0 arg1 arg2 : ℕ) : Prop :=
  IsEcall mcause ∧ syscallId = sysCapInvokeId ∧ CapabilityRefused P s arg0 arg1 arg2 ∧
    2 ≤ s.capFailCount s.currentTask

/-- A missed deadline at the lowest level. -/
def MissesDeadline (s : Sys) (mcause mtime : ℕ) : Prop :=
  IsTimer mcause ∧ deadlineMissed s mtime = true ∧ 3 ≤ s.current.dal

def IsolationCause (P : Platform) (s : Sys) (e : TrapEvent) : Prop :=
  Leaves e.mcause (e.regs .a7) ∨ FaultsAgain s e.mcause ∨
    RefusedAgain P s e.mcause (e.regs .a7) (e.regs .a0) (e.regs .a1) (e.regs .a2) ∨
      MissesDeadline s e.mcause e.mtime

theorem timerInterrupt_isolates {mtime : ℕ} {r : Option ℕ} (hi : TaskInv s)
    (h : timerInterrupt P s mtime = .ok (w, r)) :
    IsolatesFor s w (deadlineMissed s mtime = true ∧ 3 ≤ s.current.dal) := by
  rw [timerInterrupt] at h
  obtain ⟨v, hv, h⟩ := bind_eq_ok.mp h
  obtain ⟨⟨x, flow⟩, hx, hw⟩ := bind_eq_ok.mp h
  obtain ⟨rfl, -⟩ := answerZeroUnlessStarted_eq (Except.ok.inj hw)
  have hdeadline := deadlinePhase_isolates hi hv
  rw [scheduleTimerTick] at hx
  split at hx
  · cases hx
    exact hdeadline.isolated
  · obtain ⟨y, hy, hx⟩ := bind_eq_ok.mp hx
    have hphases := tickPhases_isolates hy
    rw [← hphases.currentTask] at hx
    exact select_isolates (hdeadline.before hphases) hx

theorem syscallTable_isolates {mcause syscallId arg0 arg1 arg2 : ℕ} {r : Option ℕ}
    (hi : TaskInv s) (he : IsEcall mcause)
    (h : syscallTable P (incrementSyscallCount s) syscallId arg0 arg1 arg2 = .ok (w, r)) :
    IsolatesFor s w
      (Leaves mcause syscallId ∨ RefusedAgain P s mcause syscallId arg0 arg1 arg2) := by
  have hcounted := statesKept_isolates (ipcFrame_statesKept (incrementSyscallCount_frame s))
  have hinv := taskInv_evolves (ipcFrame_evolves (incrementSyscallCount_frame s)).1 hi
  have hother : ∀ {x : Sys}, Isolates s x False → syscallId ≠ sysExitId →
      syscallId ≠ sysCapInvokeId → IsolatesFor s x
        (Leaves mcause syscallId ∨ RefusedAgain P s mcause syscallId arg0 arg1 arg2) := by
    intro x hx hexit hcap
    exact (hx.congr (by simp [Leaves, RefusedAgain, hexit, hcap])).isolated
  simp only [syscallTable] at h
  split at h
  · obtain ⟨⟨v, x⟩, hv, hw⟩ := bind_eq_ok.mp h
    cases hw
    refine ((hcounted.after (sysCapInvoke_isolates hinv hv)).congr ?_).isolated
    have href : CapabilityRefused P (incrementSyscallCount s) arg0 arg1 arg2 ↔
        CapabilityRefused P s arg0 arg1 arg2 := by
      rw [CapabilityRefused, capabilityGranted_incrementSyscallCount]
      rfl
    rw [href, (incrementSyscallCount_frame _).capFailCount, incrementSyscallCount_currentTask]
    simp [Leaves, RefusedAgain, he, sysExitId, sysCapInvokeId]
  · cases h
    have hkept := ipcFrame_statesKept (sysIpcSend_frame P (incrementSyscallCount s) arg0 arg1)
    exact hother (hcounted.after (statesKept_isolates hkept)) (by decide) (by decide)
  · cases h
    have hkept := ipcFrame_statesKept (sysIpcRecv_frame P (incrementSyscallCount s) arg0 arg1)
    exact hother (hcounted.after (statesKept_isolates hkept)) (by decide) (by decide)
  · obtain ⟨x, hx, h⟩ := bind_eq_ok.mp h
    obtain ⟨⟨v, flow⟩, hv, hw⟩ := bind_eq_ok.mp h
    obtain ⟨rfl, -⟩ := okUnlessStarted_eq (Except.ok.inj hw)
    have hkick := hcounted.after (watchdogKick_isolates hinv.currentAlive hx)
    exact yield_isolates (hkick.congr (by simp [Leaves, RefusedAgain, sysExitId, sysCapInvokeId])) hv
  · cases h
    exact hother hcounted (by decide) (by decide)
  · obtain ⟨x, hx, h⟩ := bind_eq_ok.mp h
    obtain ⟨⟨v, flow⟩, hv, hw⟩ := bind_eq_ok.mp h
    obtain ⟨rfl, -⟩ := okUnlessStarted_eq (Except.ok.inj hw)
    obtain ⟨rfl, -⟩ := isolateTask_ok hx
    have hmark := hcounted.after (markIsolated_isolates (current_inTable hinv))
    exact yield_isolates (hmark.congr (by simp [Leaves, he, sysExitId])) hv
  · cases h

theorem dispatch_isolates {mcause syscallId arg0 arg1 arg2 : ℕ} {r : Option ℕ} (hi : TaskInv s)
    (he : IsEcall mcause) (h : dispatch P s syscallId arg0 arg1 arg2 = .ok (w, r)) :
    IsolatesFor s w
      (Leaves mcause syscallId ∨ RefusedAgain P s mcause syscallId arg0 arg1 arg2) := by
  rw [dispatch] at h
  split at h
  · rename_i hid
    cases h
    have hexit : syscallId ≠ sysExitId := by
      rintro rfl
      exact absurd hid (by decide)
    have hcap : syscallId ≠ sysCapInvokeId := by
      rintro rfl
      exact absurd hid (by decide)
    exact ((Isolates.refl s).congr (by simp [Leaves, RefusedAgain, hexit, hcap])).isolated
  · obtain ⟨⟨v, x⟩, hv, hw⟩ := bind_eq_ok.mp h
    cases hw
    exact syscallTable_isolates hi he hv

theorem faultTrap_isolates {mcause syscallId arg0 arg1 arg2 : ℕ} {r : Option ℕ} (hi : TaskInv s)
    (hno : ¬ (mcause = 8 ∨ mcause = 11))
    (h : exceptionTrap P s mcause syscallId arg0 arg1 arg2 = .ok (w, r)) :
    IsolatesFor s w (maxRestartFault ≤ s.restartCounts s.currentTask) := by
  have hfault : ∀ {event taskId x}, handleTaskFault P (s.log event taskId []) = .ok x →
      IsolatesFor s x (maxRestartFault ≤ s.restartCounts s.currentTask) := by
    intro event taskId x hx
    have hann := (Annotated.refl s).log event taskId []
    have hlog := statesKept_isolates (statesKept_of_tasks hann.currentTask hann.tasks)
    have hrespond := handleTaskFault_isolates (taskInv_evolves hann.evolves hi) hx
    exact (hlog.after hrespond).isolated
  simp only [exceptionTrap] at h
  split at h
  case h_1 | h_2 => exact absurd (by simp) hno
  case h_3 | h_4 | h_5 | h_6 | h_7 =>
    obtain ⟨x, hx, h⟩ := bind_eq_ok.mp h
    cases h
    exact hfault hx
  case h_8 | h_9 =>
    obtain ⟨x, hx, h⟩ := bind_eq_ok.mp h
    cases h
    rw [respondToAccessFault] at hx
    split at hx
    · exact ((logged_respond_isolates hi hx).congr (fault_isolates _ (.inr rfl))).isolated
    · exact hfault hx
  all_goals cases h

theorem trapHandler_isolates {e : TrapEvent} {args : Reg → ℕ} {r : Option ℕ} (hi : TaskInv s)
    (ha : HandlerArgs e args)
    (h : trapHandler P s e.mtime (args .a0) (args .a2) (args .a3) (args .a4) (args .a5) =
      .ok (w, r)) : IsolatesFor s w (IsolationCause P s e) := by
  rw [ha.mcause, ha.syscallId, ha.arg0, ha.arg1, ha.arg2, trapHandler] at h
  split at h
  · rename_i hint
    have hexc : ¬ IsEcall e.mcause ∧ ¬ IsFault e.mcause :=
      ⟨fun he => hint he.1, fun hf => hint hf.1⟩
    split at h
    · rename_i htimer
      intro i
      rw [timerInterrupt_isolates hi h i]
      have ht : IsTimer e.mcause := ⟨hint, htimer⟩
      simp [IsolationCause, Leaves, FaultsAgain, RefusedAgain, MissesDeadline, hexc, ht]
    · rename_i hother
      cases h
      intro i
      have ht : ¬ IsTimer e.mcause := fun ht => hother ht.2
      simp [IsolationCause, Leaves, FaultsAgain, RefusedAgain, MissesDeadline, hexc, ht]
  · rename_i hint
    have hint : e.mcause &&& interruptBit = 0 := not_not.mp hint
    have ht : ¬ IsTimer e.mcause := fun ht => ht.1 hint
    by_cases hecall : e.mcause = 8 ∨ e.mcause = 11
    · have he : IsEcall e.mcause := ⟨hint, hecall⟩
      have hf : ¬ IsFault e.mcause := fun hf => hf.2 hecall
      have hbody : ecallTrap P s e.mcause (e.regs .a7) (e.regs .a0) (e.regs .a1) (e.regs .a2) =
          .ok (w, r) := by
        rcases hecall with hc | hc <;> simpa only [exceptionTrap, hc] using h
      obtain ⟨-, -, hd⟩ := bind_eq_ok.mp hbody
      intro i
      rw [dispatch_isolates hi he hd i]
      simp [IsolationCause, FaultsAgain, MissesDeadline, hf, ht]
    · have he : ¬ IsEcall e.mcause := fun he => hecall he.2
      have hf : IsFault e.mcause := ⟨hint, hecall⟩
      intro i
      rw [faultTrap_isolates hi hecall h i]
      simp [IsolationCause, Leaves, FaultsAgain, RefusedAgain, MissesDeadline, he, hf, ht]

theorem trap_isolates {e : TrapEvent} (hi : TaskInv s) (h : trap P s e = .ok v) :
    IsolatesFor s v (IsolationCause P s e) := by
  rw [trap] at h
  obtain ⟨⟨u, args⟩, hu, h⟩ := bind_eq_ok.mp h
  obtain ⟨⟨w, r⟩, hw, h⟩ := bind_eq_ok.mp h
  obtain rfl := Except.ok.inj h
  have hui := taskInv_sameKernel (entered_sameKernel hu) hi
  intro i
  have hbody := trapHandler_isolates hui (entered_args hu) hw i
  obtain ⟨k, -, -, rfl⟩ := enterHandler_ok hu
  rw [(leaveHandler_sameKernel P w r).tasks]
  exact hbody

end

/-- A trap isolates the task it interrupts for one of the four causes, and nobody else. -/
theorem isolated_for_cause {P : Platform} {s v : Sys} {e : TrapEvent}
    (h : Reachable (kernel P) anyStep s) (htrap : trap P s e = .ok v) (i : TaskIndex) :
    (v.tasks i).state = .isolated ↔
      (s.tasks i).state = .isolated ∨ (i = s.currentTask ∧ IsolationCause P s e) :=
  trap_isolates (reachable_taskInv h) htrap i

/-- Three illegal instructions restart the first task, the fourth isolates it. -/
theorem fourth_fault_isolates : ∃ s v, Reachable (kernel referencePlatform) anyStep s ∧
    trap referencePlatform s (trapAt 2 0x80001000 fun _ => 0) = .ok v ∧
      (s.tasks 0).state = .running ∧ (v.tasks 0).state = .isolated := by
  let e := trapAt 2 0x80001000 fun _ => 0
  obtain ⟨v, hv, -⟩ := endsWith_iff.mp (show endsWith
    (scenario bootInit ([e, e, e] ++ [e])) (fun _ => true) = true by decide +kernel)
  obtain ⟨s, hs, hv⟩ := scenario_append [e, e, e] hv
  rw [run_singleton] at hv
  obtain ⟨s', hs', ht⟩ := endsWith_iff.mp (show endsWith (scenario bootInit [e, e, e])
    (fun s => decide (s.currentTask = 0 ∧ (s.tasks 0).state = .running ∧
      s.restartCounts 0 = maxRestartFault)) = true by decide +kernel)
  obtain rfl : s = s' := Except.ok.inj (hs.symm.trans hs')
  obtain ⟨hcur, hrun, hcount⟩ := of_decide_eq_true ht
  refine ⟨s, v, scenario_reachable hs, hv, hrun, ?_⟩
  apply (isolated_for_cause (scenario_reachable hs) hv 0).mpr
  refine .inr ⟨hcur.symm, .inr (.inl ⟨by decide, ?_⟩)⟩
  rw [hcur, hcount]

end KernelIsolation
