import Sipahi.KernelTaskInvariants

/-!
# Who executes after a trap

The paths that stop the current task without handing the CPU on: a fault or a capability
violation that isolates it, and a selection that finds no other task.
-/
namespace KernelRunningTask

open KernelTypes KernelPolicy KernelState KernelTrapFrame KernelScheduler KernelSyscall KernelTrap
open KernelHandlers KernelEvolution KernelSelection KernelBoot KernelTaskInvariants KernelReference
open RiscvHart GuardedExecution

/-- The tasks are stopped and woken by neither of the two. -/
structure StatesKept (s u : Sys) : Prop where
  currentTask : u.currentTask = s.currentTask
  states : ∀ i, (u.tasks i).state = (s.tasks i).state

theorem StatesKept.refl (s : Sys) : StatesKept s s := ⟨rfl, fun _ => rfl⟩

theorem StatesKept.trans {s u v : Sys} (a : StatesKept s u) (b : StatesKept u v) :
    StatesKept s v :=
  ⟨b.currentTask.trans a.currentTask, fun i => (b.states i).trans (a.states i)⟩

theorem statesKept_of_tasks {s u : Sys} (hc : u.currentTask = s.currentTask)
    (ht : u.tasks = s.tasks) : StatesKept s u :=
  ⟨hc, fun i => by rw [ht]⟩

theorem setTask_statesKept {s : Sys} {i : TaskIndex} {t : Task}
    (h : t.state = (s.tasks i).state) : StatesKept s (s.setTask i t) := by
  refine ⟨rfl, fun j => ?_⟩
  by_cases hj : j = i
  · subst j
    simpa using h
  · simp [hj]

theorem StatesKept.current {s u : Sys} (h : StatesKept s u) : u.current.state = s.current.state := by
  simp only [Sys.current]
  rw [h.currentTask, h.states]

theorem ipcFrame_statesKept {s u : Sys} (h : IpcFrame s u) : StatesKept s u :=
  ⟨h.currentTask, h.field Task.state fun _ => rfl⟩

/-- The arguments pass the range check and the capability is refused. -/
def CapabilityRefused (P : Platform) (s : Sys) (cap resource action : ℕ) : Prop :=
  ¬ (u8Max < cap ∨ u16Max < resource ∨ u8Max < action) ∧
    capabilityGranted P s cap resource action = some false

/-- The selection has a task to run: the current one still does, or another one can. -/
def CanRunSomeone (q : Sys) : Prop :=
  q.current.state = .running ∨
    2 ≤ q.taskCount ∧ ∃ i, Selectable q i ∧ (q.tasks i).priority < u8Max

structure StaysRunning (P : Platform) (s : Sys) (e : TrapEvent) : Prop where
  selection : ∀ q, SelectsAt P s e q → CanRunSomeone q
  fault : IsFault e.mcause → s.restartCounts s.currentTask < maxRestartFault
  capability : IsEcall e.mcause → e.regs .a7 = sysCapInvokeId →
    CapabilityRefused P s (e.regs .a0) (e.regs .a1) (e.regs .a2) → s.capFailCount s.currentTask < 2

theorem running_select {P : Platform} {q w : Sys} {flow : Flow} (hq : CanRunSomeone q)
    (h : doPrioritySelectAndSwitch P q q.currentTask = .ok (w, flow)) :
    w.current.state = .running := by
  rcases select_cases h with ⟨ht, rfl, -⟩ | ⟨next, -, hs⟩
  · rcases hq with hrun | ⟨hcount, i, hsel, hprio⟩
    · exact hrun
    · rcases switchTarget_none ht with hc | hn | ⟨-, hrun⟩
      · omega
      · have := selectNext_none hn i hsel
        omega
      · exact hrun
  · obtain ⟨pmp, rfl⟩ := hs.state
    exact handOver_next q.tasks q.currentTask next

theorem restartCountOf_val (counts : TaskIndex → ℕ) (i : TaskIndex) :
    restartCountOf counts i.val = counts i := by
  simp [restartCountOf]

theorem fault_answer {s : Sys} {i : TaskIndex} {dal : ℕ} {event : PolicyEvent}
    (he : event = .taskFault ∨ event = .stackOverflow) (h : s.restartCounts i < maxRestartFault) :
    answer s i.val event dal = .restart := by
  rcases he with rfl | rfl <;>
    simp [answer, PolicyEvent.code, decideAction, restartCountOf_val, h]

theorem respond_restart_statesKept {P : Platform} {s u : Sys} {id : TaskIndex} {taskId dal : ℕ}
    {event : PolicyEvent} (ha : answer s taskId event dal = .restart)
    (h : respond P s id taskId event dal = .ok u) : StatesKept s u := by
  obtain ⟨q, hq, hacts⟩ := respond_acts h
  rw [ha] at hacts
  obtain rfl : u = restartTask P q id := hacts
  obtain ⟨hart, hrest⟩ := restartTask_rest P q id
  rw [hrest]
  exact statesKept_of_tasks hq.currentTask hq.tasks

theorem recordCapResult_statesKept {P : Platform} {s u : Sys} {ok : Bool}
    (hok : ok = false → s.capFailCount s.currentTask < 2)
    (h : recordCapResult P s ok = .ok u) : StatesKept s u := by
  simp only [recordCapResult] at h
  cases ok with
  | true =>
    cases h
    exact statesKept_of_tasks rfl rfl
  | false =>
    have hlt : ¬ 3 ≤ saturatingAdd8 (s.capFailCount s.currentTask) 1 := by
      have := hok rfl
      rw [saturatingAdd8]
      omega
    simp only [Bool.false_eq_true, if_false, if_neg hlt] at h
    cases h
    exact statesKept_of_tasks rfl rfl

theorem sysCapInvoke_statesKept {P : Platform} {s u : Sys} {cap resource action x : ℕ}
    (href : CapabilityRefused P s cap resource action → s.capFailCount s.currentTask < 2)
    (h : sysCapInvoke P s cap resource action = .ok (u, x)) : StatesKept s u := by
  rw [sysCapInvoke] at h
  split at h
  · cases h
    exact .refl s
  · rename_i hrange
    split at h
    · cases h
      exact .refl s
    · rename_i ok hok
      obtain ⟨v, hv, h⟩ := bind_eq_ok.mp h
      cases h
      exact recordCapResult_statesKept (fun hf => href ⟨hrange, hf ▸ hok⟩) hv

theorem capabilityGranted_incrementSyscallCount (P : Platform) (s : Sys)
    (cap resource action : ℕ) : capabilityGranted P (incrementSyscallCount s) cap resource action =
      capabilityGranted P s cap resource action := by
  obtain ⟨⟨tasks, hrest⟩, -⟩ := incrementSyscallCount_counted s
  rw [hrest]
  rfl

theorem handleTaskFault_statesKept {P : Platform} {s u : Sys} (hi : TaskInv s)
    (hf : s.restartCounts s.currentTask < maxRestartFault)
    (h : handleTaskFault P s = .ok u) : StatesKept s u := by
  rw [handleTaskFault, if_pos (current_inTable hi)] at h
  exact respond_restart_statesKept (fault_answer (Or.inl rfl) hf) h

/-- One trap, stated over the state in which the handler starts. -/
theorem running_serves {P : Platform} {u w : Sys} {mtime mcause syscallId arg0 arg1 arg2 : ℕ}
    {r : Option ℕ} (hi : TaskInv u) (hrun : u.current.state = .running)
    (hsel : ∀ q, AtSelection P u mtime mcause syscallId q → CanRunSomeone q)
    (hfault : IsFault mcause → u.restartCounts u.currentTask < maxRestartFault)
    (hcap : IsEcall mcause → syscallId = sysCapInvokeId →
      CapabilityRefused P u arg0 arg1 arg2 → u.capFailCount u.currentTask < 2)
    (h : Serves P u mtime mcause syscallId arg0 arg1 arg2 w r) : w.current.state = .running := by
  have hinc := ipcFrame_statesKept (incrementSyscallCount_frame u)
  have hselected : ∀ q flow, AtSelection P u mtime mcause syscallId q →
      doPrioritySelectAndSwitch P q u.currentTask = .ok (w, flow) →
      w.current.state = .running := by
    intro q flow hq hw
    rw [← (atSelection_evolves hi.currentAlive hq).currentTask] at hw
    exact running_select (hsel q hq) hw
  have hyield : ∀ q flow, AtSelection P u mtime mcause syscallId q →
      scheduleYield P q = .ok (w, flow) → w.current.state = .running := by
    intro q flow hq hw
    have he := atSelection_evolves hi.currentAlive hq
    have hlt := current_inTable (taskInv_evolves he hi)
    rw [scheduleYield, if_neg (by omega), he.currentTask] at hw
    exact hselected q flow hq hw
  cases h with
  | ignored => exact hrun
  | emptyTick _ hv hzero =>
    have hlt := current_inTable (taskInv_evolves (deadlinePhase_evolves hi.currentAlive hv).1 hi)
    omega
  | @tick v q _ flow ht hv hq hw =>
    rw [(deadlinePhase_evolves hi.currentAlive hv).1.currentTask] at hw
    exact hselected q flow (Or.inl ⟨ht, v, hv, hq⟩) hw
  | badSyscall => exact hrun
  | capInvoke he hid hw =>
    have href : CapabilityRefused P (incrementSyscallCount u) arg0 arg1 arg2 →
        (incrementSyscallCount u).capFailCount (incrementSyscallCount u).currentTask < 2 := by
      rw [CapabilityRefused]
      rw [capabilityGranted_incrementSyscallCount, (incrementSyscallCount_frame _).capFailCount,
        hinc.currentTask]
      exact hcap he hid
    rw [(hinc.trans (sysCapInvoke_statesKept href hw)).current, hrun]
  | ipcSend =>
    have hkept := ipcFrame_statesKept (sysIpcSend_frame P (incrementSyscallCount u) arg0 arg1)
    rw [(hinc.trans hkept).current, hrun]
  | ipcRecv =>
    have hkept := ipcFrame_statesKept (sysIpcRecv_frame P (incrementSyscallCount u) arg0 arg1)
    rw [(hinc.trans hkept).current, hrun]
  | taskInfo => rw [hinc.current, hrun]
  | @yield q _ flow he hid hq hw => exact hyield q flow (Or.inr (Or.inl ⟨he, hid, hq⟩)) hw
  | @exit q _ flow he hid hq hw => exact hyield q flow (Or.inr (Or.inr ⟨he, hid, hq⟩)) hw
  | @taskFault event taskId _ hint hne hw =>
    have hl := ((Annotated.refl u).log event taskId []).evolves
    have hkept := handleTaskFault_statesKept (taskInv_evolves hl hi) (hfault ⟨hint, hne⟩) hw
    exact hkept.current.trans hrun
  | @stackOverflow event taskId _ hint hne hw =>
    have hkept := respond_restart_statesKept (s := u.log event taskId [])
      (fault_answer (Or.inr rfl) (hfault ⟨hint, hne⟩)) hw
    exact hkept.current.trans hrun

theorem running_trap {P : Platform} {s v : Sys} {e : TrapEvent} (hi : TaskInv s)
    (hrun : s.current.state = .running) (hg : StaysRunning P s e) (h : trap P s e = .ok v) :
    v.current.state = .running := by
  obtain ⟨u, args, w, r, ⟨hu, hs⟩, rfl⟩ := trap_ok h
  have hin := entered_sameKernel hu
  have hargs := entered_args hu
  have hout := statesKept_of_tasks (leaveHandler_sameKernel P w r).currentTask
    (leaveHandler_sameKernel P w r).tasks
  rw [hout.current]
  refine running_serves (taskInv_sameKernel hin hi) ?_ (fun q hq => hg.selection q ⟨u, args, hu, hq⟩)
    ?_ ?_ hs
  · rw [(statesKept_of_tasks hin.currentTask hin.tasks).current, hrun]
  · rw [hargs.mcause]
    obtain ⟨k, -, -, rfl⟩ := enterHandler_ok hu
    exact hg.fault
  · rw [hargs.mcause, hargs.syscallId, hargs.arg0, hargs.arg1, hargs.arg2]
    obtain ⟨k, -, -, rfl⟩ := enterHandler_ok hu
    exact hg.capability

theorem running_initial {P : Platform} {s : Sys} (h : (kernel P).Initial s) :
    s.current.state = .running := by
  obtain ⟨q, best, hs⟩ := initial_started h
  obtain ⟨pmp, rfl⟩ := hs.state
  simp [Sys.current]

/-- In a run in which the current task is never stopped without a successor, whoever executes in
U-mode is `Running`. -/
theorem only_running_executes {P : Platform} {s : Sys}
    (h : Reachable (kernel P) (StaysRunning P) s) : s.current.state = .running :=
  reachable_invariant (I := fun s => s.current.state = .running) (fun _ h0 => running_initial h0)
    (fun _ _ _ hr hrun hg hs => running_trap (reachable_taskInv hr) hrun hg hs) h

/-- The state in which a timer interrupt selects. -/
def tickSelection (P : Platform) (s : Sys) (e : TrapEvent) : Except Halt Sys := do
  let (u, _) ← enterHandler P s e
  let v ← deadlinePhase P u e.mtime
  tickPhases P v

theorem tickSelection_of_selectsAt {P : Platform} {s q : Sys} {e : TrapEvent}
    (he : ¬ IsEcall e.mcause) (h : SelectsAt P s e q) : tickSelection P s e = .ok q := by
  obtain ⟨u, args, hu, hq⟩ := h
  rw [(entered_args hu).mcause] at hq
  rcases hq with ⟨-, v, hv, hq⟩ | ⟨hc, -⟩ | ⟨hc, -⟩
  · exact bind_eq_ok.mpr ⟨(u, args), hu, bind_eq_ok.mpr ⟨v, hv, hq⟩⟩
  · exact absurd hc he
  · exact absurd hc he

theorem only_running_executes_after_tick : ∃ s v,
    Reachable (kernel referencePlatform) (StaysRunning referencePlatform) s ∧
      trap referencePlatform s (timerAt 0x80001000 fun _ => 0) = .ok v ∧
      v.current.state = .running := by
  let e := timerAt 0x80001000 fun _ => 0
  obtain ⟨v, hv, -⟩ := endsWith_iff.mp (show endsWith (scenario bootInit [e]) (fun _ => true) = true
    by decide +kernel)
  obtain ⟨s, hs, hv⟩ := scenario_append [] hv
  rw [run_singleton] at hv
  have hr : Reachable (kernel referencePlatform) (StaysRunning referencePlatform) s :=
    booted_reachable hs
  have hg : StaysRunning referencePlatform s e := by
    refine ⟨fun q hq => Or.inl ?_, fun hf => absurd hf (by decide),
      fun hc => absurd hc (by decide)⟩
    obtain ⟨q', hq', ht⟩ := endsWith_iff.mp (show endsWith (scenario bootInit [] >>= fun s =>
      tickSelection referencePlatform s e) (fun q => decide (q.current.state = .running)) = true
      by decide +kernel)
    rw [hs] at hq'
    obtain rfl : q = q' :=
      Except.ok.inj ((tickSelection_of_selectsAt (by decide) hq).symm.trans hq')
    exact of_decide_eq_true ht
  exact ⟨s, v, hr, hv, only_running_executes (hr.next hg hv)⟩

/-- A single task that exhausts its budget in the first tick keeps the CPU while `Suspended`. -/
theorem suspended_task_executes :
    ¬ ∀ (P : Platform) (s : Sys), Reachable (kernel P) anyStep s → s.current.state = .running := by
  intro h
  obtain ⟨s, hs, ht⟩ := endsWith_iff.mp (show endsWith
    (scenario [legacyTask 4 1 1 10] [timerAt 0x80001000 (fun _ => 0)])
    (fun s => decide (s.current.state = .suspended)) = true by decide +kernel)
  have hrun := h _ s (scenario_reachable hs)
  rw [of_decide_eq_true ht] at hrun
  cases hrun

end KernelRunningTask
