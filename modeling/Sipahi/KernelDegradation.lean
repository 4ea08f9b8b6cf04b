import Sipahi.KernelTaskInvariants

/-!
# Degraded mode

Budgets and the degraded flag change at two kinds of points only: where a policy action degrades
the system, and where a tick resets periods and possibly recovers. `ModeInvariant` asks for
preservation at these points and for insensitivity to everything else.
-/
namespace KernelDegradation

open KernelTypes KernelPolicy KernelState KernelTrapFrame KernelScheduler KernelSyscall KernelTrap
open KernelHandlers KernelEvolution KernelSelection KernelBoot KernelTaskInvariants KernelReference
open RiscvHart GuardedExecution

/-- Tasks may be stopped; budgets and the mode are left alone. -/
structure Quiet (s u : Sys) : Prop where
  taskCount : u.taskCount = s.taskCount
  degraded : u.degraded = s.degraded
  config : ∀ i, config (u.tasks i) = config (s.tasks i)
  budget : ∀ i, (u.tasks i).budgetCycles = (s.tasks i).budgetCycles
  state : ∀ i, (u.tasks i).state = (s.tasks i).state ∨
    (s.tasks i).live ∧ ((u.tasks i).state = .suspended ∨ (u.tasks i).state = .isolated)

theorem quiet_of_tasks {s u : Sys} (hc : u.taskCount = s.taskCount) (hd : u.degraded = s.degraded)
    (ht : u.tasks = s.tasks) : Quiet s u :=
  ⟨hc, hd, fun i => by rw [ht], fun i => by rw [ht], fun i => Or.inl (by rw [ht])⟩

theorem Quiet.refl (s : Sys) : Quiet s s := quiet_of_tasks rfl rfl rfl

theorem Quiet.live {s u : Sys} (h : Quiet s u) {i : TaskIndex} (hl : (u.tasks i).live) :
    (s.tasks i).live := by
  rcases h.state i with hs | hs
  · rw [Task.live] at hl ⊢
    rwa [← hs]
  · exact hs.1

theorem Quiet.trans {s u v : Sys} (a : Quiet s u) (b : Quiet u v) : Quiet s v where
  taskCount := b.taskCount.trans a.taskCount
  degraded := b.degraded.trans a.degraded
  config := fun i => (b.config i).trans (a.config i)
  budget := fun i => (b.budget i).trans (a.budget i)
  state := fun i => by
    rcases b.state i with hb | ⟨hl, hb⟩
    · rw [hb]
      exact a.state i
    · exact Or.inr ⟨a.live hl, hb⟩

theorem annotated_quiet {s u : Sys} (h : Annotated s u) : Quiet s u :=
  quiet_of_tasks h.taskCount h.degraded h.tasks

theorem sameKernel_quiet {s u : Sys} (h : SameKernel s u) : Quiet s u :=
  quiet_of_tasks h.taskCount h.degraded h.tasks

theorem setTask_quiet {s : Sys} {i : TaskIndex} {t : Task} (hc : config t = config (s.tasks i))
    (hb : t.budgetCycles = (s.tasks i).budgetCycles)
    (hs : t.state = (s.tasks i).state ∨ (s.tasks i).live ∧ t.state = .suspended) :
    Quiet s (s.setTask i t) := by
  refine ⟨rfl, rfl, fun j => ?_, fun j => ?_, fun j => ?_⟩
  · by_cases hj : j = i
    · subst j
      simpa using hc
    · simp [hj]
  · by_cases hj : j = i
    · subst j
      simpa using hb
    · simp [hj]
  · by_cases hj : j = i
    · subst j
      simpa using hs.imp_right fun h => And.intro h.1 (Or.inl h.2)
    · simp [hj]

theorem isolateTask_quiet {s u : Sys} {id : TaskIndex} (hid : (s.tasks id).state ≠ .dead)
    (h : isolateTask s id = .ok u) : Quiet s u := by
  obtain ⟨rfl, -⟩ := isolateTask_ok h
  have hframe := markIsolated_frame s id
  have hconfig := hframe.field KernelEvolution.config fun _ => rfl
  have hbudget := hframe.field Task.budgetCycles fun _ => rfl
  obtain ⟨tasks, cache, hrest⟩ := hframe.rest
  refine ⟨by rw [hrest], by rw [hrest], hconfig, hbudget, ?_⟩
  intro i
  rcases hframe.state i with hsame | ⟨rfl, hnow⟩
  · exact .inl hsame
  · by_cases hiso : (s.tasks i).state = .isolated
    · exact .inl (hnow.trans hiso.symm)
    · exact .inr ⟨⟨hid, hiso⟩, .inr hnow⟩

theorem restartTask_quiet (P : Platform) (s : Sys) (id : TaskIndex) :
    Quiet s (restartTask P s id) := by
  obtain ⟨hart, hrest⟩ := restartTask_rest P s id
  rw [hrest]
  exact quiet_of_tasks rfl rfl rfl

/-- Every answer but `Degrade` and `Failover` is quiet. -/
theorem respond_mode {P : Platform} {s u : Sys} {id : TaskIndex} {taskId dal : ℕ}
    {event : PolicyEvent} (hid : (s.tasks id).state ≠ .dead)
    (h : respond P s id taskId event dal = .ok u) :
    Quiet s u ∨ (answer s taskId event dal = .degrade ∨ answer s taskId event dal = .failover) ∧
      ∃ q, Annotated s q ∧ u = degradeSystem q := by
  obtain ⟨q, hq, ha⟩ := respond_acts h
  generalize answer s taskId event dal = mode at ha ⊢
  have hqq := annotated_quiet hq
  cases mode with
  | restart =>
    obtain rfl : u = restartTask P q id := ha
    exact Or.inl (hqq.trans (restartTask_quiet P q id))
  | isolate => exact Or.inl (hqq.trans (isolateTask_quiet (by rwa [hq.tasks]) ha))
  | degrade => exact Or.inr ⟨Or.inl rfl, q, hq, ha⟩
  | failover => exact Or.inr ⟨Or.inr rfl, q, hq, ha⟩
  | alert =>
    obtain rfl : u = q := ha
    exact Or.inl hqq
  | shutdown => exact ha.elim

/-! ## The points at which the mode can change -/

/-- The handler started in `u` is about to degrade the system in the state `q`. -/
inductive DegradesAt (P : Platform) (u : Sys) (mtime mcause syscallId : ℕ) : Sys → Prop where
  | deadline : IsTimer mcause → deadlineMissed u mtime = true → u.current.dal = 0 →
      DegradesAt P u mtime mcause syscallId u
  | watchdog {v q₀ q before w after} : IsTimer mcause → deadlinePhase P u mtime = .ok v →
      tickBeforeWatchdog v = .ok q₀ → List.finRange maxTasks = before ++ w :: after →
      run (watchdogLoop P) q₀ before = .ok q → w.val < q.taskCount →
      watchdogTimesOut (q.tasks w) = true → DegradesAt P u mtime mcause syscallId q
  | budget {v q₀ q} : IsTimer mcause → deadlinePhase P u mtime = .ok v →
      tickBeforeWatchdog v = .ok q₀ → watchdogPhase P q₀ = .ok q →
      budgetExhausts (q.tasks v.currentTask) = true →
      maxRestartBudget ≤ restartCountOf q.restartCounts (q.tasks v.currentTask).id →
      DegradesAt P u mtime mcause syscallId q
  | kick : IsEcall mcause → syscallId = sysYieldId → kickTooEarly u.current = true →
      DegradesAt P u mtime mcause syscallId u

/-- The trap `e` taken in `s` degrades the system in the state `q`. -/
def DegradesIn (P : Platform) (s : Sys) (e : TrapEvent) (q : Sys) : Prop :=
  ∃ u args, enterHandler P s e = .ok (u, args) ∧ DegradesAt P u e.mtime (args .a0) (args .a2) q

/-- The trap `e` taken in `s` is a tick that resets the periods in the state `q`. -/
def ResetsPeriodsIn (P : Platform) (s : Sys) (e : TrapEvent) (q : Sys) : Prop :=
  IsTimer e.mcause ∧ ∃ u args v, enterHandler P s e = .ok (u, args) ∧
    deadlinePhase P u e.mtime = .ok v ∧ q = { v with blackbox := v.blackbox.advanceTick }

/-- `I` survives a degradation in a state with `D`, a period reset with recovery in a state with
`T`, and every quiet step and hand-over. -/
structure ModeInvariant (I D T : Sys → Prop) : Prop where
  quiet : ∀ {s u}, Quiet s u → I s → I u
  guard : ∀ {s u}, Quiet s u → D s → D u
  degrade : ∀ {s}, D s → I s → I (degradeSystem s)
  tick : ∀ {s}, T s → I s → I (tryRecoverFromDegrade (periodPhase s))
  handOver : ∀ {P s next u flow}, Selectable s next → Switched P s s.currentTask next u flow →
    I s → I u

section

variable {I D T : Sys → Prop} {P : Platform} {s u : Sys}

theorem ModeInvariant.respond (M : ModeInvariant I D T) {q : Sys} {id : TaskIndex}
    {taskId dal : ℕ} {event : PolicyEvent} (h : respond P q id taskId event dal = .ok u)
    (hq : Quiet s q) (hid : (q.tasks id).state ≠ .dead)
    (hD : answer q taskId event dal = .degrade ∨ answer q taskId event dal = .failover → D s)
    (hI : I s) : I u := by
  rcases respond_mode hid h with hu | ⟨ha, v, hv, rfl⟩
  · exact M.quiet (hq.trans hu) hI
  · have hqv := hq.trans (annotated_quiet hv)
    exact M.degrade (M.guard hqv (hD ha)) (M.quiet hqv hI)

theorem deadline_answer {taskId dal : ℕ}
    (h : answer s taskId .deadlineMiss dal = .degrade ∨
      answer s taskId .deadlineMiss dal = .failover) : dal = 0 := by
  simp only [answer, PolicyEvent.code, decideAction] at h
  split at h
  · rfl
  all_goals simp at h

theorem ModeInvariant.deadlinePhase (M : ModeInvariant I D T) {mtime : ℕ}
    (hc : s.current.state ≠ .dead)
    (hD : deadlineMissed s mtime = true → s.current.dal = 0 → D s)
    (hI : I s) (h : deadlinePhase P s mtime = .ok u) : I u := by
  have ha : Annotated s (armNextTick s mtime) := ⟨rfl, rfl, rfl, rfl, rfl, rfl, rfl⟩
  obtain ⟨-, h⟩ := deadlinePhase_ok.mp h
  simp only [answerDeadline] at h
  split at h
  · rename_i hm
    exact M.respond h (annotated_quiet (ha.log ..)) hc
      (fun hans => hD hm (deadline_answer hans)) hI
  · cases h
    exact M.quiet (annotated_quiet ha) hI

theorem watchdogCount_quiet (s : Sys) (w : TaskIndex) :
    Quiet s (s.setTask w (watchdogCount (s.tasks w))) :=
  setTask_quiet (watchdogCount_config _) (watchdogCount_budget _) (Or.inl (watchdogCount_state _))

theorem clearWatchdog_quiet (s : Sys) (w : TaskIndex) : Quiet s (clearWatchdog s w) :=
  setTask_quiet rfl rfl (Or.inl rfl)

theorem ModeInvariant.watchdogTask (M : ModeInvariant I D T) {w : TaskIndex} (hI : I s)
    (hD : w.val < s.taskCount → watchdogTimesOut (s.tasks w) = true → D s)
    (h : watchdogTask P s w = .ok u) : I u := by
  have hc := watchdogCount_quiet s w
  simp only [KernelScheduler.watchdogTask] at h
  split at h
  · rename_i hlt
    split at h
    · rename_i ht
      obtain ⟨q, hq, hu⟩ := bind_eq_ok.mp h
      cases hu
      have hIq : I q := by
        refine M.respond hq (hc.trans (annotated_quiet ((Annotated.refl _).log ..))) ?_
          (fun _ => hD hlt ht) hI
        simp [watchdogCount_state, timesOut_running ht]
      exact M.quiet (clearWatchdog_quiet q w) hIq
    · cases h
      exact M.quiet hc hI
  · cases h
    exact hI

theorem ModeInvariant.watchdogPhase (M : ModeInvariant I D T) (hI : I s)
    (hD : ∀ before w after q, List.finRange maxTasks = before ++ w :: after →
      run (watchdogLoop P) s before = .ok q → w.val < q.taskCount →
      watchdogTimesOut (q.tasks w) = true → D q)
    (h : watchdogPhase P s = .ok u) : I u := by
  have hg : GuardedRun (watchdogLoop P)
      (fun q w => w.val < q.taskCount → watchdogTimesOut (q.tasks w) = true → D q) s
      (List.finRange maxTasks) := guardedRun_of_reached hD
  exact run_invariant (I := I) (fun _ _ _ hq hguard hw => M.watchdogTask hq hguard hw) hI hg h

theorem budgetCycles_set (t : Task) (remaining : ℕ) (state : TaskState) :
    { t with remainingCycles := remaining, state := state }.budgetCycles = t.budgetCycles := rfl

theorem chargeTick_budget (t : Task) : (chargeTick t).budgetCycles = t.budgetCycles :=
  budgetCycles_set t _ _

theorem chargeTick_quiet {old : TaskIndex} (h : (s.tasks old).state = .running) :
    Quiet s (s.setTask old (chargeTick (s.tasks old))) := by
  apply setTask_quiet (chargeTick_config _) (chargeTick_budget _)
  rcases chargeTick_state h with k | k
  · exact Or.inl (k.trans h.symm)
  · exact Or.inr ⟨by simp [Task.live, h], k⟩

theorem budget_answer {taskId dal : ℕ}
    (h : answer s taskId .budgetExhausted dal = .degrade ∨
      answer s taskId .budgetExhausted dal = .failover) :
    maxRestartBudget ≤ restartCountOf s.restartCounts taskId := by
  simp only [answer, PolicyEvent.code, decideAction] at h
  split at h
  · simp at h
  · omega

theorem ModeInvariant.budgetPhase (M : ModeInvariant I D T) {old : TaskIndex} (hI : I s)
    (hD : budgetExhausts (s.tasks old) = true →
      maxRestartBudget ≤ restartCountOf s.restartCounts (s.tasks old).id → D s)
    (h : budgetPhase P s old = .ok u) : I u := by
  simp only [KernelScheduler.budgetPhase] at h
  split at h
  · rename_i ha
    have hrun := budgetActive_running ha
    have hc := chargeTick_quiet hrun
    split at h
    · rename_i hex
      refine M.respond h (hc.trans (annotated_quiet ((Annotated.refl _).log ..))) ?_
        (fun hans => hD hex (budget_answer hans)) hI
      rcases chargeTick_state hrun with k | k <;> simp [k]
    · cases h
      exact M.quiet hc hI
  · cases h
    exact hI

theorem ipcFrame_quiet {s u : Sys} (h : IpcFrame s u) : Quiet s u := by
  have hconfig := h.field KernelEvolution.config fun _ => rfl
  have hbudget := h.field Task.budgetCycles fun _ => rfl
  have hstate := h.field Task.state fun _ => rfl
  obtain ⟨⟨tasks, pool, mem, rfl⟩, -⟩ := h
  exact ⟨rfl, rfl, hconfig, hbudget, fun i => .inl (hstate i)⟩

theorem kickTooEarly_incrementSyscallCount (s : Sys) :
    kickTooEarly (incrementSyscallCount s).current = kickTooEarly s.current := by
  have hframe := incrementSyscallCount_frame s
  rw [Sys.current, Sys.current, hframe.currentTask]
  exact hframe.field kickTooEarly (fun _ => rfl) s.currentTask

theorem ModeInvariant.watchdogKick (M : ModeInvariant I D T) (hc : s.current.state ≠ .dead)
    (hI : I s) (hD : kickTooEarly s.current = true → D s)
    (h : watchdogKick P s = .ok u) : I u := by
  rw [KernelScheduler.watchdogKick] at h
  split at h
  · obtain ⟨q, hq, hu⟩ := bind_eq_ok.mp h
    cases hu
    refine M.quiet (clearWatchdog_quiet q _) ?_
    simp only [checkKickWindow] at hq
    split at hq
    · rename_i hk
      exact M.respond hq (annotated_quiet ((Annotated.refl s).log ..)) hc (fun _ => hD hk) hI
    · cases hq
      exact hI
  · cases h
    exact hI

/-- Faults and capability violations never degrade the system. -/
theorem fault_answer_quiet {taskId dal : ℕ} {event : PolicyEvent}
    (he : event = .taskFault ∨ event = .stackOverflow ∨ event = .capViolation) :
    ¬ (answer s taskId event dal = .degrade ∨ answer s taskId event dal = .failover) := by
  rcases he with rfl | rfl | rfl
  · simp only [answer, PolicyEvent.code, decideAction]
    split <;> simp
  · simp only [answer, PolicyEvent.code, decideAction]
    split <;> simp
  · simp [answer, PolicyEvent.code, decideAction]

theorem ModeInvariant.recordCapResult (M : ModeInvariant I D T) {ok : Bool}
    (hc : s.current.state ≠ .dead) (hI : I s) (h : recordCapResult P s ok = .ok u) : I u := by
  have hcount : ∀ counts, Quiet s { s with capFailCount := counts } :=
    fun _ => quiet_of_tasks rfl rfl rfl
  simp only [KernelSyscall.recordCapResult] at h
  split at h
  · cases h
    exact M.quiet (hcount _) hI
  · split at h
    · exact M.respond (s := s) h (quiet_of_tasks rfl rfl rfl) hc
        (fun ha => absurd ha (fault_answer_quiet (Or.inr (Or.inr rfl)))) hI
    · cases h
      exact M.quiet (hcount _) hI

theorem ModeInvariant.sysCapInvoke (M : ModeInvariant I D T) {cap resource action x : ℕ}
    (hc : s.current.state ≠ .dead) (hI : I s)
    (h : sysCapInvoke P s cap resource action = .ok (u, x)) : I u := by
  rw [KernelSyscall.sysCapInvoke] at h
  split at h
  · cases h
    exact hI
  · split at h
    · cases h
      exact hI
    · obtain ⟨q, hq, hu⟩ := bind_eq_ok.mp h
      cases hu
      exact M.recordCapResult hc hI hq

theorem ModeInvariant.select (M : ModeInvariant I D T) {q w : Sys} {flow : Flow} (hI : I q)
    (h : doPrioritySelectAndSwitch P q q.currentTask = .ok (w, flow)) : I w := by
  rcases select_cases h with ⟨-, rfl, -⟩ | ⟨next, ht, hs⟩
  · exact hI
  · obtain ⟨-, hsel, -⟩ := switchTarget_some ht
    exact M.handOver (selectNext_some hsel).1 hs hI

theorem ModeInvariant.yield (M : ModeInvariant I D T) {q w : Sys} {flow : Flow} (hI : I q)
    (h : scheduleYield P q = .ok (w, flow)) : I w := by
  rw [scheduleYield] at h
  split at h
  · cases h
    exact hI
  · exact M.select hI h

variable {w : Sys} {mtime mcause syscallId arg0 arg1 arg2 : ℕ} {r : Option ℕ}

theorem ModeInvariant.serves (M : ModeInvariant I D T) (hi : TaskInv s) (hI : I s)
    (hD : ∀ q, DegradesAt P s mtime mcause syscallId q → D q)
    (hT : ∀ v, IsTimer mcause → KernelTrap.deadlinePhase P s mtime = .ok v →
      T { v with blackbox := v.blackbox.advanceTick })
    (h : Serves P s mtime mcause syscallId arg0 arg1 arg2 w r) : I w := by
  have hinc := ipcFrame_quiet (incrementSyscallCount_frame s)
  have hIinc := M.quiet hinc hI
  have hiinc := taskInv_evolves (ipcFrame_evolves (incrementSyscallCount_frame s)).1 hi
  have hlog : ∀ event taskId, Quiet s (s.log event taskId []) := fun _ _ =>
    annotated_quiet ((Annotated.refl s).log ..)
  have hdeadline : ∀ v, IsTimer mcause → KernelTrap.deadlinePhase P s mtime = .ok v → I v :=
    fun v ht hv => M.deadlinePhase hi.currentAlive (fun hm hd => hD s (.deadline ht hm hd)) hI hv
  cases h with
  | ignored => exact hI
  | emptyTick ht hv _ => exact hdeadline _ ht hv
  | @tick v q _ flow ht hv hq hw =>
    obtain ⟨q₀, hq₀, hq⟩ := bind_eq_ok.mp hq
    obtain ⟨q₁, hq₁, hq⟩ := bind_eq_ok.mp hq
    have hI₀ : I q₀ := by
      rw [tickBeforeWatchdog_ok hq₀]
      refine M.tick (hT v ht hv) (M.quiet (s := v) ?_ (hdeadline v ht hv))
      exact quiet_of_tasks rfl rfl rfl
    have hI₁ : I q₁ := M.watchdogPhase hI₀
      (fun _ _ _ q' hsplit hrun hlt hto => hD q' (.watchdog ht hv hq₀ hsplit hrun hlt hto)) hq₁
    have hIq : I q := M.budgetPhase hI₁
      (fun hex hres => hD q₁ (.budget ht hv hq₀ hq₁ hex hres)) hq
    have hcur := ((tickBeforeWatchdog_evolves hq₀).trans (watchdogPhase_evolves hq₁)).currentTask
    rw [← hcur] at hq hw
    rw [← (budgetPhase_evolves hq).currentTask] at hw
    exact M.select hIq hw
  | badSyscall => exact hI
  | capInvoke _ _ hw => exact M.sysCapInvoke hiinc.currentAlive hIinc hw
  | ipcSend => exact M.quiet (ipcFrame_quiet (sysIpcSend_frame P _ arg0 arg1)) hIinc
  | ipcRecv => exact M.quiet (ipcFrame_quiet (sysIpcRecv_frame P _ arg0 arg1)) hIinc
  | taskInfo => exact hIinc
  | yield he hid hq hw =>
    refine M.yield (M.watchdogKick hiinc.currentAlive hIinc (fun hk => ?_) hq) hw
    rw [kickTooEarly_incrementSyscallCount] at hk
    exact M.guard hinc (hD s (.kick he hid hk))
  | exit _ _ hq hw =>
    have hdead : ((incrementSyscallCount s).tasks s.currentTask).state ≠ .dead := by
      rw [← incrementSyscallCount_currentTask s]
      exact hiinc.currentAlive
    exact M.yield (M.quiet (isolateTask_quiet hdead hq) hIinc) hw
  | @taskFault event taskId _ _ _ hw =>
    rw [handleTaskFault] at hw
    split at hw
    · exact M.respond hw (hlog event taskId) hi.currentAlive
        (fun ha => absurd ha (fault_answer_quiet (Or.inl rfl))) hI
    · cases hw
      exact M.quiet (hlog event taskId) hI
  | @stackOverflow event taskId _ _ _ hw =>
    exact M.respond hw (hlog event taskId) hi.currentAlive
      (fun ha => absurd ha (fault_answer_quiet (Or.inr (Or.inl rfl)))) hI

/-- What a run has to avoid for `I` to hold throughout. -/
structure ModeGuard (D T : Sys → Prop) (P : Platform) (s : Sys) (e : TrapEvent) : Prop where
  degrades : ∀ q, DegradesIn P s e q → D q
  resetsPeriods : ∀ q, ResetsPeriodsIn P s e q → T q

theorem ModeInvariant.trap (M : ModeInvariant I D T) {v : Sys} {e : TrapEvent} (hi : TaskInv s)
    (hI : I s) (hg : ModeGuard D T P s e) (h : trap P s e = .ok v) : I v := by
  obtain ⟨u, args, w, r, ⟨hu, hs⟩, rfl⟩ := trap_ok h
  have hin := entered_sameKernel hu
  refine M.quiet (sameKernel_quiet (leaveHandler_sameKernel P w r)) ?_
  refine M.serves (taskInv_sameKernel hin hi) (M.quiet (sameKernel_quiet hin) hI)
    (fun q hq => hg.degrades q ⟨u, args, hu, hq⟩) (fun v ht hv => ?_) hs
  rw [(entered_args hu).mcause] at ht
  exact hg.resetsPeriods _ ⟨ht, u, args, v, hu, hv, rfl⟩

theorem ModeInvariant.reachable (M : ModeInvariant I D T) {guard : Sys → TrapEvent → Prop}
    (hg : ∀ q e, guard q e → ModeGuard D T P q e) (h0 : ∀ q, (kernel P).Initial q → I q)
    (h : Reachable (kernel P) guard s) : I s :=
  reachable_invariant h0
    (fun q e _ hr hI hge hs => M.trap (reachable_taskInv hr) hI (hg q e hge) hs) h

end

/-! ## Low-criticality tasks in degraded mode -/

/-- `period_counter.wrapping_add(1) >= period_ticks` for a task that has a period. -/
def periodExpires (t : Task) : Prop :=
  0 < t.periodTicks ∧ t.periodTicks ≤ wrappingAdd32 t.periodCounter 1

instance (t : Task) : Decidable (periodExpires t) := inferInstanceAs (Decidable (_ ∧ _))

def LowSuspended (s : Sys) : Prop :=
  s.degraded = true → ∀ i, i.val < s.taskCount → 2 ≤ (s.tasks i).dal →
    (s.tasks i).state = .suspended ∨ (s.tasks i).state = .isolated ∨ (s.tasks i).state = .dead

/-- A tick in degraded mode that does not recover ends the period of no suspended DAL-C/D task. -/
def NoLowWake (q : Sys) : Prop :=
  q.degraded = true → recovers q = false → ∀ i, i.val < q.taskCount → 2 ≤ (q.tasks i).dal →
    (q.tasks i).state = .suspended → ¬ periodExpires (q.tasks i)

theorem periodTask_wakes {t : Task} (hs : t.state = .suspended) :
    (periodTask t).state = if periodExpires t then .ready else .suspended := by
  simp only [periodTask, periodExpires]
  by_cases hp : 0 < t.periodTicks
  · by_cases he : t.periodTicks ≤ wrappingAdd32 t.periodCounter 1
    · simp [hp, he, hs]
    · simp [hp, he, hs]
  · simp [hp, hs]

theorem periodTask_stays {t : Task} (hs : t.state ≠ .suspended) :
    (periodTask t).state = t.state := by
  rcases periodTask_state t with h | ⟨h, -⟩
  · exact h
  · exact absurd h hs

theorem recovers_periodPhase (s : Sys) : recovers (periodPhase s) = recovers s := by
  have hh : allHealthy (periodPhase s) = allHealthy s := by
    rw [allHealthy]
    congr 1
    funext i
    by_cases hi : i.val < s.taskCount
    · have hdal := config_dal (periodTask_config (s.tasks i))
      have hiso : ((periodTask (s.tasks i)).state == .isolated) =
          ((s.tasks i).state == .isolated) := by
        rcases periodTask_state (s.tasks i) with h | ⟨h, h'⟩
        · rw [h]
        · rw [h, h']
          rfl
      simp [periodPhase, hi, hdal, hiso]
    · simp [periodPhase, hi]
  rw [recovers]
  rw [hh]
  rfl

theorem degradeSystem_stops (s : Sys) {i : TaskIndex} (hi : i.val < s.taskCount)
    (hdal : 2 ≤ (s.tasks i).dal) (hl : (s.tasks i).live) :
    (degradeSystem s).tasks i =
      { s.tasks i with state := .suspended, budgetCycles := (s.tasks i).budgetCycles / 2 } := by
  simp [degradeSystem, degradeTask, hi, hdal, hl]

theorem tryRecoverFromDegrade_eq {s : Sys} (h : recovers s = false) :
    tryRecoverFromDegrade s = s := by
  simp [tryRecoverFromDegrade, h]

theorem lowSuspended_modeInvariant : ModeInvariant LowSuspended (fun _ => True) NoLowWake where
  quiet := by
    intro s u hq hI hd i hi hdal
    rw [config_dal (hq.config i)] at hdal
    have hs := hI (hq.degraded ▸ hd) i (hq.taskCount ▸ hi) hdal
    rcases hq.state i with he | ⟨-, he | he⟩
    · rwa [he]
    · exact Or.inl he
    · exact Or.inr (Or.inl he)
  guard := fun _ _ => trivial
  degrade := by
    intro s _ _ _ i hi hdal
    rw [config_dal (degradeSystem_config s i)] at hdal
    by_cases hl : (s.tasks i).live
    · rw [degradeSystem_stops s hi hdal hl]
      exact Or.inl rfl
    · rcases degradeSystem_task s i with he | ⟨hl', -⟩
      · rw [he]
        simp only [Task.live, not_and_or, not_not] at hl
        exact Or.inr hl.symm
      · exact absurd hl' hl
  tick := by
    intro s hT hI hd i hi hdal
    have hrec : recovers s = false := by
      by_contra hr
      rw [Bool.not_eq_false, ← recovers_periodPhase] at hr
      simp [tryRecoverFromDegrade, hr] at hd
    rw [tryRecoverFromDegrade_eq (by rw [recovers_periodPhase, hrec])] at hd hi hdal ⊢
    have hi' : i.val < s.taskCount := hi
    simp only [periodPhase, hi', if_true] at hdal ⊢
    rw [config_dal (periodTask_config _)] at hdal
    rcases hI hd i hi hdal with hs | hs | hs
    · rw [periodTask_wakes hs, if_neg (hT hd hrec i hi hdal hs)]
      exact Or.inl rfl
    · rw [periodTask_stays (by simp [hs])]
      exact Or.inr (Or.inl hs)
    · rw [periodTask_stays (by simp [hs])]
      exact Or.inr (Or.inr hs)
  handOver := by
    intro P s next u flow hsel hs hI
    obtain ⟨pmp, rfl⟩ := hs.state
    intro hd i hi hdal
    rw [config_dal (handOver_config s.tasks s.currentTask next i)] at hdal
    have hlow := hI hd i hi hdal
    -- neither the target nor a running predecessor can be a low-criticality task
    have hne : i ≠ next := by
      intro hin
      subst i
      rcases isSelectable_iff.mp hsel.2 with h | h <;> simp [h] at hlow
    rcases handOver_state s.tasks s.currentTask hne with he | ⟨hr, -⟩
    · rwa [he]
    · simp [hr] at hlow

theorem lowSuspended_initial {P : Platform} {s : Sys} (h : (kernel P).Initial s) :
    LowSuspended s := by
  obtain ⟨q, best, hs⟩ := initial_started h
  obtain ⟨pmp, rfl⟩ := hs.state
  intro hd
  exact absurd (hs.booted.degraded.symm.trans hd) (by simp)

/-- Degraded mode keeps DAL-C/D tasks off the CPU as long as no period of a suspended one ends
in it. -/
theorem degraded_mode_suspends_low {P : Platform} {s : Sys}
    (h : Reachable (kernel P) (fun q e => ∀ v, ResetsPeriodsIn P q e v → NoLowWake v) s)
    (hd : s.degraded = true) : ∀ i, i.val < s.taskCount → 2 ≤ (s.tasks i).dal →
      (s.tasks i).state = .suspended ∨ (s.tasks i).state = .isolated ∨
        (s.tasks i).state = .dead :=
  lowSuspended_modeInvariant.reachable (fun _ _ hg => ⟨fun _ _ => trivial, hg⟩)
    (fun _ h0 => lowSuspended_initial h0) h hd

/-- A yield before the watchdog window opens. -/
def earlyYield : TrapEvent := ecallAt 0x80001000 (syscallRegs sysYieldId 0 0 0)

def tick : TrapEvent := timerAt 0x80001000 fun _ => 0

/-- The state in which a trap resets the periods, if it is a tick. -/
def periodResetPoint (P : Platform) (s : Sys) (e : TrapEvent) : Except Halt Sys := do
  let (u, _) ← enterHandler P s e
  let v ← deadlinePhase P u e.mtime
  .ok { v with blackbox := v.blackbox.advanceTick }

theorem periodResetPoint_eq {P : Platform} {s q : Sys} {e : TrapEvent}
    (h : ResetsPeriodsIn P s e q) : periodResetPoint P s e = .ok q := by
  obtain ⟨-, u, args, v, hu, hv, rfl⟩ := h
  exact bind_eq_ok.mpr ⟨(u, args), hu, bind_eq_ok.mpr ⟨v, hv, rfl⟩⟩

theorem earlyYield_resetsNothing {P : Platform} {s q : Sys} : ¬ ResetsPeriodsIn P s earlyYield q :=
  fun h => absurd h.1 (by decide)

theorem degraded_mode_after_early_yield : ∃ s, Reachable (kernel referencePlatform)
    (fun q e => ∀ v, ResetsPeriodsIn referencePlatform q e v → NoLowWake v) s ∧
      s.degraded = true ∧ 2 ≤ (s.tasks 1).dal ∧ (s.tasks 1).state ≠ .ready ∧
      (s.tasks 1).state ≠ .running := by
  obtain ⟨v, hv, ht⟩ := endsWith_iff.mp (show endsWith (scenario bootInit [earlyYield])
    (fun s => decide (s.degraded = true ∧ 1 < s.taskCount ∧ 2 ≤ (s.tasks 1).dal)) = true
    by decide +kernel)
  obtain ⟨hd, hcount, hdal⟩ := of_decide_eq_true ht
  obtain ⟨s, hs, hstep⟩ := scenario_append [] hv
  rw [run_singleton] at hstep
  have hr : Reachable (kernel referencePlatform)
      (fun q e => ∀ v, ResetsPeriodsIn referencePlatform q e v → NoLowWake v) v :=
    (booted_reachable hs).next (fun _ h => absurd h earlyYield_resetsNothing) hstep
  have hoff := degraded_mode_suspends_low hr hd 1 hcount hdal
  refine ⟨v, hr, hd, hdal, fun h => ?_, fun h => ?_⟩ <;> simp [h] at hoff

/-- Ten ticks after the degradation the period of task 1 ends and the task is `Ready`. -/
theorem degraded_mode_wakes_low : ¬ ∀ (P : Platform) (s : Sys), Reachable (kernel P) anyStep s →
    s.degraded = true → ∀ i, i.val < s.taskCount → 2 ≤ (s.tasks i).dal →
      (s.tasks i).state = .suspended ∨ (s.tasks i).state = .isolated ∨
        (s.tasks i).state = .dead := by
  intro h
  obtain ⟨s, hs, ht⟩ := endsWith_iff.mp (show endsWith
    (scenario bootInit (earlyYield :: List.replicate 10 tick))
    (fun s => decide (s.degraded = true ∧ 1 < s.taskCount ∧ 2 ≤ (s.tasks 1).dal ∧
      (s.tasks 1).state = .ready)) = true by decide +kernel)
  obtain ⟨hd, hcount, hdal, hready⟩ := of_decide_eq_true ht
  have hoff := h _ s (scenario_reachable hs) hd 1 hcount hdal
  simp [hready] at hoff

end KernelDegradation
