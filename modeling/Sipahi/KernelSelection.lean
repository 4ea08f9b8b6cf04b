import Sipahi.KernelEvolution

/-!
# Selection and trap handling, inverted

What a successful selection, switch or trap can have done, each said once.
-/
namespace KernelSelection

open KernelTypes KernelPolicy KernelState KernelTrapFrame KernelScheduler KernelSyscall KernelTrap
open KernelHandlers KernelEvolution FirstMinimum RiscvHart GuardedExecution

/-- A created task that the scheduler may pick. -/
def Selectable (s : Sys) (i : TaskIndex) : Prop :=
  i.val < s.taskCount ∧ isSelectableByScheduler (s.tasks i).state = true

theorem stateSnapshot_get {s : Sys} {i : TaskIndex} (hi : i.val < s.taskCount) :
    (stateSnapshot s).getD i.val .dead = (s.tasks i).state := by
  simp [stateSnapshot, List.getD, hi]

theorem prioritySnapshot_get {s : Sys} {i : TaskIndex} (hi : i.val < s.taskCount) :
    (prioritySnapshot s).getD i.val u8Max = (s.tasks i).priority := by
  simp [prioritySnapshot, List.getD, hi]

theorem mem_selectionRange {s : Sys} {k : ℕ} :
    k ∈ List.range (min s.taskCount (min (stateSnapshot s).length (prioritySnapshot s).length)) ↔
      k < s.taskCount ∧ k < maxTasks := by
  simp [stateSnapshot, prioritySnapshot]

theorem selectNext_some {s : Sys} {n : TaskIndex} (h : selectNext s = some n) :
    Selectable s n ∧ ∀ j, Selectable s j → (s.tasks n).priority ≤ (s.tasks j).priority := by
  rw [selectNext, selectHighestPriority] at h
  obtain ⟨k, hk, hn⟩ := Option.bind_eq_some_iff.mp h
  split at hn
  · cases hn
    obtain ⟨hmem, hel, hmin⟩ := scan_some hk
    obtain ⟨hcount, hmax⟩ := mem_selectionRange.mp hmem
    have hst := stateSnapshot_get (s := s) (i := ⟨k, hmax⟩) hcount
    have hpr := prioritySnapshot_get (s := s) (i := ⟨k, hmax⟩) hcount
    rw [hst] at hel
    refine ⟨⟨hcount, hel⟩, fun j hj => ?_⟩
    have hle := hmin j.val (mem_selectionRange.mpr ⟨hj.1, j.isLt⟩)
      (by rw [stateSnapshot_get hj.1]; exact hj.2)
    rwa [hpr, prioritySnapshot_get hj.1] at hle
  · cases hn

theorem selectNext_none {s : Sys} (h : selectNext s = none) :
    ∀ j, Selectable s j → u8Max ≤ (s.tasks j).priority := by
  intro j hj
  rw [selectNext, selectHighestPriority] at h
  rw [Option.bind_eq_none_iff] at h
  have hnone : (scan (fun i => isSelectableByScheduler ((stateSnapshot s).getD i .dead))
      (fun i => (prioritySnapshot s).getD i u8Max) u8Max (List.range (min s.taskCount
        (min (stateSnapshot s).length (prioritySnapshot s).length)))).1 = none := by
    rw [Option.eq_none_iff_forall_ne_some]
    intro k hk
    have hlt := (mem_selectionRange.mp (scan_some hk).1).2
    have := h k hk
    rw [dif_pos hlt] at this
    cases this
  have hle := scan_none hnone j.val (mem_selectionRange.mpr ⟨hj.1, j.isLt⟩)
    (by rw [stateSnapshot_get hj.1]; exact hj.2)
  rwa [prioritySnapshot_get hj.1] at hle

theorem switchTarget_some {s : Sys} {old n : TaskIndex} (h : switchTarget s old = some n) :
    2 ≤ s.taskCount ∧ selectNext s = some n ∧ ¬ (n = old ∧ (s.tasks old).state = .running) := by
  rw [switchTarget] at h
  split at h
  · cases h
  · rename_i hc
    split at h
    · cases h
    · rename_i next hnext
      split at h
      · cases h
      · rename_i hne
        cases h
        exact ⟨by omega, hnext, hne⟩

/-- No switch: one task, nothing to select, or the current task stays. -/
theorem switchTarget_none {s : Sys} {old : TaskIndex} (h : switchTarget s old = none) :
    s.taskCount < 2 ∨ selectNext s = none ∨
      selectNext s = some old ∧ (s.tasks old).state = .running := by
  rw [switchTarget] at h
  split at h
  · exact Or.inl ‹_›
  · split at h
    · exact Or.inr (Or.inl ‹_›)
    · rename_i next hnext
      split at h
      · rename_i hs
        exact Or.inr (Or.inr ⟨hs.1 ▸ hnext, hs.2⟩)
      · cases h

/-- The state after the hand-over, but for the PMP registers. -/
structure Switched (P : Platform) (s : Sys) (old next : TaskIndex) (u : Sys) (flow : Flow) :
    Prop where
  state : ∃ pmp, u = { s with
    tasks := handOver s.tasks old next
    currentTask := next
    pmp := pmp
    hart := switchContext P s.hart old next }
  flow : (switchContext P s.hart old next).pc =
    if flow = .trampoline then P.taskTrampoline else P.switchReturn

theorem switchTo_ok {P : Platform} {s u : Sys} {old next : TaskIndex} {flow : Flow}
    (h : switchTo P s old next = .ok (u, flow)) : Switched P s old next u flow := by
  rw [switchTo] at h
  obtain ⟨pmp, -, h⟩ := bind_eq_ok.mp h
  dsimp only at h
  split at h
  · rename_i hpc
    cases h
    exact ⟨⟨pmp, rfl⟩, by simpa using hpc⟩
  · split at h
    · rename_i hpc
      cases h
      exact ⟨⟨pmp, rfl⟩, by simpa using hpc⟩
    · cases h

theorem select_cases {P : Platform} {s u : Sys} {old : TaskIndex} {flow : Flow}
    (h : doPrioritySelectAndSwitch P s old = .ok (u, flow)) :
    (switchTarget s old = none ∧ u = s ∧ flow = .resume) ∨
      ∃ next, switchTarget s old = some next ∧ Switched P s old next u flow := by
  rw [doPrioritySelectAndSwitch] at h
  split at h
  · rename_i hn
    cases h
    exact Or.inl ⟨hn, rfl, rfl⟩
  · rename_i next hn
    exact Or.inr ⟨next, hn, switchTo_ok h⟩

theorem handOver_next (tasks : TaskIndex → Task) (old next : TaskIndex) :
    (handOver tasks old next next).state = .running := by
  simp [handOver]

/-- A hand-over rewrites states only. -/
theorem handOver_field {α : Type*} (f : Task → α)
    (hf : ∀ t state, f { t with state := state } = f t) (tasks : TaskIndex → Task)
    (old next i : TaskIndex) : f (handOver tasks old next i) = f (tasks i) := by
  have hset : ∀ (ts : TaskIndex → Task) (j : TaskIndex) (state : TaskState),
      f (Function.update ts j { ts j with state := state } i) = f (ts i) := by
    intro ts j state
    by_cases hj : i = j
    · subst i
      simpa using hf (ts j) state
    · simp [hj]
  simp only [handOver]
  rw [hset]
  split
  · exact hset tasks old .ready
  · rfl

theorem handOver_config (tasks : TaskIndex → Task) (old next i : TaskIndex) :
    config (handOver tasks old next i) = config (tasks i) :=
  handOver_field config (fun _ _ => rfl) tasks old next i

theorem handOver_budget (tasks : TaskIndex → Task) (old next i : TaskIndex) :
    (handOver tasks old next i).budgetCycles = (tasks i).budgetCycles :=
  handOver_field Task.budgetCycles (fun _ _ => rfl) tasks old next i

/-- A task other than the one that gets the CPU keeps its state, or was running and is `Ready`. -/
theorem handOver_other (tasks : TaskIndex → Task) (old : TaskIndex) {next i : TaskIndex} (h : i ≠ next) :
    (handOver tasks old next i).state = (tasks i).state ∧ (i = old → (tasks i).state ≠ .running) ∨
      i = old ∧ (tasks i).state = .running ∧ (handOver tasks old next i).state = .ready := by
  simp only [handOver]
  split
  · rename_i hr
    by_cases ho : i = old
    · subst i
      exact Or.inr ⟨rfl, hr, by simp [h]⟩
    · exact Or.inl ⟨by simp [h, ho], fun hc => absurd hc ho⟩
  · rename_i hr
    exact Or.inl ⟨by simp [h], fun hc => hc ▸ hr⟩

/-! ## The trap handler -/

def IsTimer (mcause : ℕ) : Prop := mcause &&& interruptBit ≠ 0 ∧ mcause % interruptBit = 7

def IsEcall (mcause : ℕ) : Prop := mcause &&& interruptBit = 0 ∧ (mcause = 8 ∨ mcause = 11)

/-- An exception that is answered by the fault policy or halts the system. -/
def IsFault (mcause : ℕ) : Prop := mcause &&& interruptBit = 0 ∧ ¬ (mcause = 8 ∨ mcause = 11)

instance (mcause : ℕ) : Decidable (IsTimer mcause) := inferInstanceAs (Decidable (_ ∧ _))

instance (mcause : ℕ) : Decidable (IsEcall mcause) := inferInstanceAs (Decidable (_ ∧ _))

instance (mcause : ℕ) : Decidable (IsFault mcause) := inferInstanceAs (Decidable (_ ∧ _))

/-- Everything `trap_handler` can have done when it ends in `w` with the answer `r`. -/
inductive Serves (P : Platform) (u : Sys) (mtime mcause syscallId arg0 arg1 arg2 : ℕ) :
    Sys → Option ℕ → Prop where
  | ignored : Serves P u mtime mcause syscallId arg0 arg1 arg2 u (some 0)
  | emptyTick {v} : IsTimer mcause → deadlinePhase P u mtime = .ok v → v.taskCount = 0 →
      Serves P u mtime mcause syscallId arg0 arg1 arg2 v (some 0)
  | tick {v q w flow} : IsTimer mcause → deadlinePhase P u mtime = .ok v →
      tickPhases P v = .ok q → doPrioritySelectAndSwitch P q v.currentTask = .ok (w, flow) →
      Serves P u mtime mcause syscallId arg0 arg1 arg2 w (answerZeroUnlessStarted (w, flow)).2
  | badSyscall : IsEcall mcause → syscallCount ≤ syscallId →
      Serves P u mtime mcause syscallId arg0 arg1 arg2 u (some errInvalidSyscall)
  | capInvoke {w r} : IsEcall mcause → syscallId = sysCapInvokeId →
      sysCapInvoke P (incrementSyscallCount u) arg0 arg1 arg2 = .ok (w, r) →
      Serves P u mtime mcause syscallId arg0 arg1 arg2 w (some (hideKernelPointer P r))
  | ipcSend : IsEcall mcause → syscallId = sysIpcSendId →
      Serves P u mtime mcause syscallId arg0 arg1 arg2
        (sysIpcSend P (incrementSyscallCount u) arg0 arg1).1
        (some (hideKernelPointer P (sysIpcSend P (incrementSyscallCount u) arg0 arg1).2))
  | ipcRecv : IsEcall mcause → syscallId = sysIpcRecvId →
      Serves P u mtime mcause syscallId arg0 arg1 arg2
        (sysIpcRecv P (incrementSyscallCount u) arg0 arg1).1
        (some (hideKernelPointer P (sysIpcRecv P (incrementSyscallCount u) arg0 arg1).2))
  | taskInfo : IsEcall mcause → syscallId = sysTaskInfoId →
      Serves P u mtime mcause syscallId arg0 arg1 arg2 (incrementSyscallCount u)
        (some (hideKernelPointer P (sysTaskInfo (incrementSyscallCount u) arg0)))
  | yield {q w flow} : IsEcall mcause → syscallId = sysYieldId →
      watchdogKick P (incrementSyscallCount u) = .ok q → scheduleYield P q = .ok (w, flow) →
      Serves P u mtime mcause syscallId arg0 arg1 arg2 w
        ((okUnlessStarted (w, flow)).2.map (hideKernelPointer P))
  | exit {q w flow} : IsEcall mcause → syscallId = sysExitId →
      isolateTask (incrementSyscallCount u) u.currentTask = .ok q →
      scheduleYield P q = .ok (w, flow) →
      Serves P u mtime mcause syscallId arg0 arg1 arg2 w
        ((okUnlessStarted (w, flow)).2.map (hideKernelPointer P))
  | taskFault {event taskId w} : mcause &&& interruptBit = 0 → ¬ (mcause = 8 ∨ mcause = 11) →
      handleTaskFault P (u.log event taskId []) = .ok w →
      Serves P u mtime mcause syscallId arg0 arg1 arg2 w (some 0)
  | stackOverflow {event taskId w} : mcause &&& interruptBit = 0 →
      ¬ (mcause = 8 ∨ mcause = 11) →
      respond P (u.log event taskId []) u.currentTask u.currentTask.val .stackOverflow
        u.current.dal = .ok w →
      Serves P u mtime mcause syscallId arg0 arg1 arg2 w (some 0)

section

variable {P : Platform} {u w : Sys} {mtime mcause syscallId arg0 arg1 arg2 : ℕ} {r : Option ℕ}

theorem okUnlessStarted_eq {x : Sys × Flow} (h : okUnlessStarted x = (w, r)) :
    x.1 = w ∧ (okUnlessStarted (w, x.2)).2 = r := by
  obtain ⟨s, flow⟩ := x
  cases flow <;> cases h <;> exact ⟨rfl, rfl⟩

theorem answerZeroUnlessStarted_eq {x : Sys × Flow} (h : answerZeroUnlessStarted x = (w, r)) :
    x.1 = w ∧ (answerZeroUnlessStarted (w, x.2)).2 = r := by
  obtain ⟨s, flow⟩ := x
  cases flow <;> cases h <;> exact ⟨rfl, rfl⟩

theorem incrementSyscallCount_currentTask (s : Sys) :
    (incrementSyscallCount s).currentTask = s.currentTask :=
  (incrementSyscallCount_frame s).currentTask

theorem syscallTable_serves (he : IsEcall mcause)
    (h : syscallTable P (incrementSyscallCount u) syscallId arg0 arg1 arg2 = .ok (w, r)) :
    Serves P u mtime mcause syscallId arg0 arg1 arg2 w (r.map (hideKernelPointer P)) := by
  simp only [syscallTable] at h
  split at h
  · obtain ⟨⟨v, x⟩, hv, hw⟩ := bind_eq_ok.mp h
    cases hw
    exact .capInvoke he rfl hv
  · cases h
    exact .ipcSend he rfl
  · cases h
    exact .ipcRecv he rfl
  · obtain ⟨q, hq, h⟩ := bind_eq_ok.mp h
    obtain ⟨⟨v, flow⟩, hv, hw⟩ := bind_eq_ok.mp h
    obtain ⟨rfl, rfl⟩ := okUnlessStarted_eq (Except.ok.inj hw)
    exact .yield he rfl hq hv
  · cases h
    exact .taskInfo he rfl
  · obtain ⟨q, hq, h⟩ := bind_eq_ok.mp h
    obtain ⟨⟨v, flow⟩, hv, hw⟩ := bind_eq_ok.mp h
    obtain ⟨rfl, rfl⟩ := okUnlessStarted_eq (Except.ok.inj hw)
    rw [incrementSyscallCount_currentTask] at hq
    exact .exit he rfl hq hv
  · cases h

theorem dispatch_serves (he : IsEcall mcause)
    (h : dispatch P u syscallId arg0 arg1 arg2 = .ok (w, r)) :
    Serves P u mtime mcause syscallId arg0 arg1 arg2 w r := by
  rw [dispatch] at h
  split at h
  · cases h
    exact .badSyscall he ‹_›
  · obtain ⟨⟨v, x⟩, hv, hw⟩ := bind_eq_ok.mp h
    cases hw
    exact syscallTable_serves he hv

theorem trapHandler_serves
    (h : trapHandler P u mtime mcause syscallId arg0 arg1 arg2 = .ok (w, r)) :
    Serves P u mtime mcause syscallId arg0 arg1 arg2 w r := by
  rw [trapHandler] at h
  split at h
  · rename_i hint
    split at h
    · rename_i h7
      obtain ⟨v, hv, h⟩ := bind_eq_ok.mp h
      obtain ⟨⟨x, flow⟩, hx, hw⟩ := bind_eq_ok.mp h
      obtain ⟨rfl, rfl⟩ := answerZeroUnlessStarted_eq (Except.ok.inj hw)
      rw [scheduleTimerTick] at hx
      split at hx
      · cases hx
        exact .emptyTick ⟨hint, h7⟩ hv ‹_›
      · obtain ⟨q, hq, hx⟩ := bind_eq_ok.mp hx
        exact .tick ⟨hint, h7⟩ hv hq hx
    · cases h
      exact .ignored
  · rename_i hint
    have hint : mcause &&& interruptBit = 0 := not_not.mp hint
    simp only [exceptionTrap] at h
    split at h
    case h_1 | h_2 =>
      obtain ⟨-, -, h⟩ := bind_eq_ok.mp h
      exact dispatch_serves ⟨hint, by simp⟩ h
    case h_3 | h_4 | h_5 | h_6 | h_7 =>
      obtain ⟨v, hv, h⟩ := bind_eq_ok.mp h
      cases h
      exact .taskFault hint (by simp) hv
    case h_8 | h_9 =>
      obtain ⟨v, hv, h⟩ := bind_eq_ok.mp h
      cases h
      rw [respondToAccessFault] at hv
      split at hv
      · exact .stackOverflow hint (by simp) hv
      · exact .taskFault hint (by simp) hv
    all_goals cases h

/-- The handler enters `do_priority_select_and_switch` in the state `q`. -/
def AtSelection (P : Platform) (u : Sys) (mtime mcause syscallId : ℕ) (q : Sys) : Prop :=
  (IsTimer mcause ∧ ∃ v, deadlinePhase P u mtime = .ok v ∧ tickPhases P v = .ok q) ∨
  (IsEcall mcause ∧ syscallId = sysYieldId ∧
    watchdogKick P (incrementSyscallCount u) = .ok q) ∨
  (IsEcall mcause ∧ syscallId = sysExitId ∧
    isolateTask (incrementSyscallCount u) u.currentTask = .ok q)

theorem deadlinePhase_evolves {v : Sys} (hc : u.current.state ≠ .dead)
    (h : deadlinePhase P u mtime = .ok v) : Evolves u v ∧ NoWake u v := by
  have ha : Annotated u (armNextTick u mtime) := ⟨rfl, rfl, rfl, rfl, rfl, rfl, rfl⟩
  obtain ⟨-, h⟩ := deadlinePhase_ok.mp h
  simp only [answerDeadline] at h
  split at h
  · have hl := ha.log .deadlineMiss u.currentTask.val []
    exact ⟨hl.evolves.trans (respond_evolves (Or.inl rfl) hc h), hl.noWake.trans (respond_noWake h)⟩
  · cases h
    exact ⟨ha.evolves, ha.noWake⟩

theorem ipcFrame_evolves {s u : Sys} (h : IpcFrame s u) : Evolves s u ∧ NoWake s u := by
  have hconfig := h.field config fun _ => rfl
  have hstate := h.field Task.state fun _ => rfl
  obtain ⟨⟨tasks, pool, mem, rfl⟩, -⟩ := h
  refine ⟨evolves_of_states rfl rfl hconfig hstate rfl (.refl _ _), ?_⟩
  intro i hi
  rwa [hstate] at hi

theorem checkKickWindow_evolves {v : Sys} (hc : u.current.state ≠ .dead)
    (h : checkKickWindow P u = .ok v) : Evolves u v ∧ NoWake u v := by
  simp only [checkKickWindow] at h
  split at h
  · have hl := (Annotated.refl u).log .watchdogTimeout u.current.id []
    exact ⟨hl.evolves.trans (respond_evolves (Or.inl rfl) hc h), hl.noWake.trans (respond_noWake h)⟩
  · cases h
    exact ⟨.refl _, fun _ h => h⟩

theorem watchdogKick_evolves {v : Sys} (hc : u.current.state ≠ .dead)
    (h : watchdogKick P u = .ok v) : Evolves u v ∧ NoWake u v := by
  rw [watchdogKick] at h
  split at h
  · obtain ⟨q, hq, hv⟩ := bind_eq_ok.mp h
    cases hv
    obtain ⟨he, hn⟩ := checkKickWindow_evolves hc hq
    exact ⟨he.trans (clearWatchdog_evolves _ _), hn.trans (clearWatchdog_noWake _ _)⟩
  · cases h
    exact ⟨.refl _, fun _ h => h⟩

theorem handleTaskFault_evolves {v : Sys} (hc : u.current.state ≠ .dead)
    (h : handleTaskFault P u = .ok v) : Evolves u v ∧ NoWake u v := by
  rw [handleTaskFault] at h
  split at h
  · exact ⟨respond_evolves (Or.inl rfl) hc h, respond_noWake h⟩
  · cases h
    exact ⟨.refl _, fun _ h => h⟩

theorem recordCapResult_evolves {v : Sys} {ok : Bool} (hc : u.current.state ≠ .dead)
    (h : recordCapResult P u ok = .ok v) : Evolves u v ∧ NoWake u v := by
  have hcount : ∀ counts, Annotated u { u with capFailCount := counts } :=
    fun _ => ⟨rfl, rfl, rfl, rfl, rfl, rfl, rfl⟩
  simp only [recordCapResult] at h
  split at h
  · cases h
    exact ⟨(hcount _).evolves, (hcount _).noWake⟩
  · split at h
    · have hl := (hcount (Function.update u.capFailCount u.currentTask 0)).log .capViolation
        u.currentTask.val []
      exact ⟨hl.evolves.trans (respond_evolves (Or.inl rfl) hc h),
        hl.noWake.trans (respond_noWake h)⟩
    · cases h
      exact ⟨(hcount _).evolves, (hcount _).noWake⟩

theorem sysCapInvoke_evolves {v : Sys} {x cap resource action : ℕ} (hc : u.current.state ≠ .dead)
    (h : sysCapInvoke P u cap resource action = .ok (v, x)) : Evolves u v ∧ NoWake u v := by
  rw [sysCapInvoke] at h
  split at h
  · cases h
    exact ⟨.refl _, fun _ h => h⟩
  · split at h
    · cases h
      exact ⟨.refl _, fun _ h => h⟩
    · obtain ⟨q, hq, hv⟩ := bind_eq_ok.mp h
      cases hv
      exact recordCapResult_evolves hc hq

theorem atSelection_evolves {q : Sys} (hc : u.current.state ≠ .dead)
    (h : AtSelection P u mtime mcause syscallId q) : Evolves u q := by
  obtain ⟨hi, -⟩ := ipcFrame_evolves (incrementSyscallCount_frame u)
  have hc' := hi.currentAlive hc
  rcases h with ⟨-, v, hv, hq⟩ | ⟨-, -, hq⟩ | ⟨-, -, hq⟩
  · exact (deadlinePhase_evolves hc hv).1.trans (tickPhases_evolves hq)
  · exact hi.trans (watchdogKick_evolves hc' hq).1
  · refine hi.trans (isolateTask_evolves ?_ hq)
    rw [Ne, hi.dead]
    exact hc

/-- A trap either ends without a selection, waking nobody, or through one. -/
theorem serves_cases (hc : u.current.state ≠ .dead)
    (h : Serves P u mtime mcause syscallId arg0 arg1 arg2 w r) :
    (Evolves u w ∧ NoWake u w ∧ ∃ x, r = some x) ∨
      ∃ q flow, AtSelection P u mtime mcause syscallId q ∧
        doPrioritySelectAndSwitch P q u.currentTask = .ok (w, flow) ∧
        (r = none ↔ flow = .trampoline) := by
  obtain ⟨hi, hin⟩ := ipcFrame_evolves (incrementSyscallCount_frame u)
  have hc' := hi.currentAlive hc
  have hl : ∀ event taskId, Annotated u (u.log event taskId []) :=
    fun _ _ => (Annotated.refl u).log ..
  cases h with
  | ignored => exact Or.inl ⟨.refl u, fun _ h => h, 0, rfl⟩
  | emptyTick _ hv _ =>
    obtain ⟨he, hn⟩ := deadlinePhase_evolves hc hv
    exact Or.inl ⟨he, hn, 0, rfl⟩
  | @tick v q _ flow ht hv hq hw =>
    rw [(deadlinePhase_evolves hc hv).1.currentTask] at hw
    exact Or.inr ⟨q, flow, Or.inl ⟨ht, v, hv, hq⟩, hw, by cases flow <;> simp [answerZeroUnlessStarted]⟩
  | badSyscall => exact Or.inl ⟨.refl u, fun _ h => h, _, rfl⟩
  | capInvoke _ _ hw =>
    obtain ⟨he, hn⟩ := sysCapInvoke_evolves hc' hw
    exact Or.inl ⟨hi.trans he, hin.trans hn, _, rfl⟩
  | ipcSend =>
    obtain ⟨he, hn⟩ := ipcFrame_evolves (sysIpcSend_frame P (incrementSyscallCount u) arg0 arg1)
    exact Or.inl ⟨hi.trans he, hin.trans hn, _, rfl⟩
  | ipcRecv =>
    obtain ⟨he, hn⟩ := ipcFrame_evolves (sysIpcRecv_frame P (incrementSyscallCount u) arg0 arg1)
    exact Or.inl ⟨hi.trans he, hin.trans hn, _, rfl⟩
  | taskInfo => exact Or.inl ⟨hi, hin, _, rfl⟩
  | @yield q _ flow he hid hq hw =>
    obtain ⟨hqe, hqn⟩ := watchdogKick_evolves hc' hq
    have hcur := (hi.trans hqe).currentTask
    rw [scheduleYield] at hw
    split at hw
    · cases hw
      exact Or.inl ⟨hi.trans hqe, hin.trans hqn, _, rfl⟩
    · rw [hcur] at hw
      exact Or.inr ⟨q, flow, Or.inr (Or.inl ⟨he, hid, hq⟩), hw, by cases flow <;> simp [okUnlessStarted]⟩
  | @exit q _ flow he hid hq hw =>
    have hqe := atSelection_evolves hc
      (Or.inr (Or.inr ⟨he, hid, hq⟩) : AtSelection P u mtime mcause syscallId q)
    have hqn : NoWake (incrementSyscallCount u) q := by
      rw [(isolateTask_ok hq).1]
      exact markIsolated_noWake _ _
    rw [scheduleYield] at hw
    split at hw
    · cases hw
      exact Or.inl ⟨hqe, hin.trans hqn, _, rfl⟩
    · rw [hqe.currentTask] at hw
      exact Or.inr ⟨q, flow, Or.inr (Or.inr ⟨he, hid, hq⟩), hw, by cases flow <;> simp [okUnlessStarted]⟩
  | @taskFault event taskId _ _ _ hw =>
    obtain ⟨he, hn⟩ := handleTaskFault_evolves (u := u.log event taskId []) hc hw
    exact Or.inl ⟨(hl event taskId).evolves.trans he, (hl event taskId).noWake.trans hn, 0, rfl⟩
  | @stackOverflow event taskId _ _ _ hw =>
    exact Or.inl ⟨(hl event taskId).evolves.trans (respond_evolves (Or.inl rfl) hc hw),
      (hl event taskId).noWake.trans (respond_noWake hw), 0, rfl⟩

end

/-! ## The trap -/

theorem enterHandler_ok {P : Platform} {s u : Sys} {e : TrapEvent} {args : Reg → ℕ}
    (h : enterHandler P s e = .ok (u, args)) :
    ∃ k, trapEntry (takeTrap s e).hart = .ok k ∧ args = k.regs ∧
      u = { s with userMem := e.userMem, hart := handlerPrologue P e.scratch k } := by
  rw [enterHandler] at h
  obtain ⟨k, hk, h⟩ := bind_eq_ok.mp h
  cases h
  exact ⟨k, hk, rfl, rfl⟩

/-- The arguments that `trap_entry` passes to the handler. -/
structure HandlerArgs (e : TrapEvent) (args : Reg → ℕ) : Prop where
  mcause : args .a0 = e.mcause
  syscallId : args .a2 = e.regs .a7
  arg0 : args .a3 = e.regs .a0
  arg1 : args .a4 = e.regs .a1
  arg2 : args .a5 = e.regs .a2

theorem entered_args {P : Platform} {s u : Sys} {e : TrapEvent} {args : Reg → ℕ}
    (h : enterHandler P s e = .ok (u, args)) : HandlerArgs e args := by
  obtain ⟨k, hk, rfl, -⟩ := enterHandler_ok h
  have he := trapEntry_entered hk
  exact ⟨he.arg0, he.arg2, he.arg3, he.arg4, he.arg5⟩

/-- The body of `trap_handler` runs in `u` on the arguments in `args` and ends in `w`. -/
structure TrapRun (P : Platform) (s : Sys) (e : TrapEvent) (u : Sys) (args : Reg → ℕ) (w : Sys)
    (r : Option ℕ) : Prop where
  entered : enterHandler P s e = .ok (u, args)
  serves : Serves P u e.mtime (args .a0) (args .a2) (args .a3) (args .a4) (args .a5) w r

theorem trap_ok {P : Platform} {s v : Sys} {e : TrapEvent} (h : trap P s e = .ok v) :
    ∃ u args w r, TrapRun P s e u args w r ∧ v = leaveHandler P (w, r) := by
  rw [trap] at h
  obtain ⟨⟨u, args⟩, hu, h⟩ := bind_eq_ok.mp h
  obtain ⟨⟨w, r⟩, hw, h⟩ := bind_eq_ok.mp h
  exact ⟨u, args, w, r, ⟨hu, trapHandler_serves hw⟩, (Except.ok.inj h).symm⟩

/-- The kernel's own statics: all that is neither registers nor user memory. -/
structure SameKernel (s u : Sys) : Prop where
  tasks : u.tasks = s.tasks
  taskCount : u.taskCount = s.taskCount
  currentTask : u.currentTask = s.currentTask
  degraded : u.degraded = s.degraded
  broker : u.broker = s.broker

theorem entered_sameKernel {P : Platform} {s u : Sys} {e : TrapEvent} {args : Reg → ℕ}
    (h : enterHandler P s e = .ok (u, args)) : SameKernel s u := by
  obtain ⟨k, -, -, rfl⟩ := enterHandler_ok h
  exact ⟨rfl, rfl, rfl, rfl, rfl⟩

theorem leaveHandler_sameKernel (P : Platform) (w : Sys) (r : Option ℕ) :
    SameKernel w (leaveHandler P (w, r)) := by
  cases r <;> exact ⟨rfl, rfl, rfl, rfl, rfl⟩

/-- The trap `e` taken in `s` selects a task in the state `q`. -/
def SelectsAt (P : Platform) (s : Sys) (e : TrapEvent) (q : Sys) : Prop :=
  ∃ u args, enterHandler P s e = .ok (u, args) ∧ AtSelection P u e.mtime (args .a0) (args .a2) q

end KernelSelection
