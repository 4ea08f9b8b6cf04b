import Sipahi.KernelSupply
import Sipahi.KernelIsolation
import Mathlib.Algebra.Order.BigOperators.Group.Finset

/-!
# How long a task waits

A task that can be selected waits for the tasks of higher or equal priority only, and their budgets
bound how long that takes.
-/
namespace KernelResponse

open KernelTypes KernelState KernelScheduler KernelSyscall KernelTrap KernelHandlers KernelEvolution
open KernelSelection KernelTaskInvariants KernelResume KernelRunningTask KernelIsolation
open KernelReference KernelDegradation KernelFrame KernelAccounting KernelBudgetPeriod KernelSupply
open RiscvHart GuardedExecution RunHistory

/-- The tasks that may have the CPU while this one waits. -/
def above (s : Sys) (i : TaskIndex) : Finset TaskIndex :=
  Finset.univ.filter fun j =>
    j ≠ i ∧ (s.tasks j).state ≠ .dead ∧ (s.tasks j).priority ≤ (s.tasks i).priority

/-- A tick whose policy actions stop the task it interrupts before it is charged. -/
def stoppedByPolicy (P : Platform) (s : Sys) (e : TrapEvent) : Bool :=
  timerTick s e && decide (s.current.state = .running) && !charged P s.currentTask s e

/-- A tick that interrupts an isolated task. -/
def lateSwitch (s : Sys) (e : TrapEvent) : Bool :=
  timerTick s e && decide (s.current.state = .isolated)

/-- An isolated task that no longer has the CPU. -/
def sidelined (s : Sys) : ℕ :=
  if ∃ j, j ≠ s.currentTask ∧ (s.tasks j).state = .isolated then 1 else 0

/-! ## Who has the CPU -/

/-- The current task after a step that selects nobody. -/
structure Retains (s u : Sys) : Prop where
  currentTask : u.currentTask = s.currentTask
  state : u.current.state = s.current.state ∨ u.current.state = .isolated

section

variable {P : Platform} {s u v w q : Sys} {e : TrapEvent} {i : TaskIndex}

theorem retains_of_kept (h : StatesKept s u) : Retains s u := ⟨h.currentTask, .inl h.current⟩

theorem retains_of_isolated (h : Isolates s u True) : Retains s u := by
  refine ⟨h.currentTask, .inr ?_⟩
  rw [Sys.current, h.currentTask]
  exact (h.isolated _).mpr (.inr ⟨rfl, trivial⟩)

theorem retains_of_cause {cause : Prop} (h : Isolates s u cause) (hno : ¬ cause → StatesKept s u) :
    Retains s u := by
  by_cases hcause : cause
  · exact retains_of_isolated (h.congr (by simp [hcause]))
  · exact retains_of_kept (hno hcause)

theorem Retains.after (a : StatesKept s u) (b : Retains u v) : Retains s v := by
  refine ⟨b.currentTask.trans a.currentTask, ?_⟩
  rw [← a.current]
  exact b.state

theorem select_running {flow : Flow} (hmany : 2 ≤ q.taskCount) (hprio : PrioritiesBelowMax w)
    (hsel : Selectable w i) (h : doPrioritySelectAndSwitch P q q.currentTask = .ok (w, flow)) :
    w.current.state = .running := by
  have hr := select_restrains h
  have hq : Selectable q i := ⟨hr.taskCount ▸ hsel.1, hr.selectable i hsel.2⟩
  have hbelow := prioritiesBelowMax_select h hprio i ⟨hq.1, selectable_alive hq⟩
  exact running_select (.inr ⟨hmany, i, hq, hbelow⟩) h

theorem yield_running {flow : Flow} (hmany : 2 ≤ q.taskCount) (hprio : PrioritiesBelowMax w)
    (hsel : Selectable w i) (h : scheduleYield P q = .ok (w, flow)) :
    w.current.state = .running := by
  rw [scheduleYield, if_neg (by omega)] at h
  exact select_running hmany hprio hsel h

theorem serves_current {mtime mcause syscallId arg0 arg1 arg2 : ℕ} {r : Option ℕ} (hi : TaskInv u)
    (hmany : 2 ≤ u.taskCount) (hprio : PrioritiesBelowMax w) (hsel : Selectable w i)
    (h : Serves P u mtime mcause syscallId arg0 arg1 arg2 w r) :
    w.current.state = .running ∨ Retains u w := by
  have hinc := ipcFrame_statesKept (incrementSyscallCount_frame u)
  have hinv := taskInv_evolves (ipcFrame_evolves (incrementSyscallCount_frame u)).1 hi
  cases h with
  | ignored | badSyscall => exact .inr (retains_of_kept (.refl u))
  | emptyTick _ hv hzero =>
    have hcount := (deadlinePhase_evolves hi.currentAlive hv).1.taskCount
    omega
  | tick _ hv hq hw =>
    have he := (deadlinePhase_evolves hi.currentAlive hv).1.trans (tickPhases_evolves hq)
    rw [← (tickPhases_evolves hq).currentTask] at hw
    exact .inl (select_running (he.taskCount ▸ hmany) hprio hsel hw)
  | capInvoke _ _ hw =>
    have hcap := retains_of_cause (sysCapInvoke_isolates hinv hw) fun hno =>
      sysCapInvoke_statesKept (fun href => by
        by_contra hmore
        exact hno ⟨href, by omega⟩) hw
    exact .inr (.after hinc hcap)
  | ipcSend =>
    exact .inr (retains_of_kept (hinc.trans (ipcFrame_statesKept (sysIpcSend_frame P _ _ _))))
  | ipcRecv =>
    exact .inr (retains_of_kept (hinc.trans (ipcFrame_statesKept (sysIpcRecv_frame P _ _ _))))
  | taskInfo => exact .inr (retains_of_kept hinc)
  | yield _ _ hq hw =>
    have he := (ipcFrame_evolves (incrementSyscallCount_frame u)).1.trans
      (watchdogKick_evolves hinv.currentAlive hq).1
    exact .inl (yield_running (he.taskCount ▸ hmany) hprio hsel hw)
  | exit _ _ hq hw =>
    obtain ⟨rfl, -⟩ := isolateTask_ok hq
    have hcount : (markIsolated (incrementSyscallCount u) u.currentTask).taskCount =
        u.taskCount := by
      obtain ⟨tasks, cache, hrest⟩ := (markIsolated_frame (incrementSyscallCount u)
        u.currentTask).rest
      rw [hrest]
      exact (ipcFrame_evolves (incrementSyscallCount_frame u)).1.taskCount
    exact .inl (yield_running (hcount ▸ hmany) hprio hsel hw)
  | @taskFault event taskId _ _ _ hw =>
    have hann := (Annotated.refl u).log event taskId []
    have hlogged := taskInv_evolves hann.evolves hi
    have hfault := retains_of_cause (handleTaskFault_isolates hlogged hw) fun hno =>
      handleTaskFault_statesKept hlogged (by omega) hw
    exact .inr (.after (statesKept_of_tasks hann.currentTask hann.tasks) hfault)
  | @stackOverflow event taskId _ _ _ hw =>
    have hann := (Annotated.refl u).log event taskId []
    have hcause := (logged_respond_isolates hi hw).congr (fault_isolates _ (.inr rfl))
    refine .inr (retains_of_cause hcause fun hno => ?_)
    have hlogged := statesKept_of_tasks hann.currentTask hann.tasks
    exact hlogged.trans (respond_restart_statesKept (fault_answer (.inr rfl) (by
      simp only [Sys.log]
      omega)) hw)

theorem sameKernel_current (h : SameKernel s u) : StatesKept s u :=
  statesKept_of_tasks h.currentTask h.tasks

theorem sameKernel_priorities (h : SameKernel s u) (hp : PrioritiesBelowMax u) :
    PrioritiesBelowMax s := by
  intro i hc
  have hu := hp i (by
    rw [Sys.Created, h.tasks, h.taskCount]
    exact hc)
  rwa [h.tasks] at hu

theorem trap_current (hi : TaskInv s) (hmany : 2 ≤ s.taskCount) (hprio : PrioritiesBelowMax v)
    (hsel : Selectable v i) (h : trap P s e = .ok v) :
    v.current.state = .running ∨ Retains s v := by
  obtain ⟨u, args, w, r, hrun, rfl⟩ := trap_ok h
  have hin := entered_sameKernel hrun.entered
  have hout := leaveHandler_sameKernel P w r
  have hw : Selectable w i := by
    rw [Selectable, ← hout.tasks, ← hout.taskCount]
    exact hsel
  have hserved := serves_current (taskInv_sameKernel hin hi) (hin.taskCount ▸ hmany)
    (sameKernel_priorities hout hprio) hw hrun.serves
  rw [(sameKernel_current hout).current]
  refine hserved.imp_right fun hr => ⟨?_, ?_⟩
  · rw [hout.currentTask, hr.currentTask, hin.currentTask]
  · rw [(sameKernel_current hout).current, ← (sameKernel_current hin).current]
    exact hr.state

theorem timer_running (hi : TaskInv s) (hmany : 2 ≤ s.taskCount) (hprio : PrioritiesBelowMax v)
    (hsel : Selectable v i) (ht : IsTimer e.mcause) (h : trap P s e = .ok v) :
    v.current.state = .running := by
  obtain ⟨u, args, w, r, hu, hw, rfl⟩ := trap_handled h
  have hin := entered_sameKernel hu
  have hui := taskInv_sameKernel hin hi
  have hout := leaveHandler_sameKernel P w r
  rw [(sameKernel_current hout).current]
  cases hw with
  | fault hf => exact absurd ht.1 (by simp [hf.1])
  | ignored hno => exact absurd ht hno
  | syscall he => exact absurd ht (ecall_not_timer he)
  | timer _ htimer =>
    rw [timerInterrupt] at htimer
    obtain ⟨y, hy, htimer⟩ := bind_eq_ok.mp htimer
    obtain ⟨⟨z, flow⟩, hz, htimer⟩ := bind_eq_ok.mp htimer
    obtain ⟨rfl, -⟩ := answerZeroUnlessStarted_eq (Except.ok.inj htimer)
    have hye := (deadlinePhase_evolves hui.currentAlive hy).1
    have hcount : y.taskCount = s.taskCount := hye.taskCount.trans hin.taskCount
    rw [scheduleTimerTick, if_neg (by omega)] at hz
    obtain ⟨q, hq, hz⟩ := bind_eq_ok.mp hz
    have hqe := tickPhases_evolves hq
    rw [← hqe.currentTask] at hz
    have hselected : Selectable z i := by
      rw [Selectable, ← hout.tasks, ← hout.taskCount]
      exact hsel
    exact select_running (by rw [hqe.taskCount]; omega) (sameKernel_priorities hout hprio)
      hselected hz

end

/-! ## Waiting -/

/-- Somebody else may have the CPU, but the task can be selected. -/
structure Waiting (P : Platform) (i : TaskIndex) (s : Sys) : Prop where
  reachable : Reachable (kernel P) anyStep s
  many : 2 ≤ s.taskCount
  priorities : PrioritiesBelowMax s
  selectable : Selectable s i

/-- The run leaves the task selectable. -/
def StaysSelectable (P : Platform) (i : TaskIndex) (s : Sys) (e : TrapEvent) : Prop :=
  ∀ v, trap P s e = .ok v → Selectable v i

section

variable {P : Platform} {s v : Sys} {e : TrapEvent} {es : List TrapEvent} {i j : TaskIndex}

theorem trap_taskCount (hi : TaskInv s) (h : trap P s e = .ok v) : v.taskCount = s.taskCount := by
  obtain ⟨u, args, w, r, hrun, rfl⟩ := trap_ok h
  have hin := entered_sameKernel hrun.entered
  have hui := taskInv_sameKernel hin hi
  rw [(leaveHandler_sameKernel P w r).taskCount, ← hin.taskCount]
  rcases serves_cases hui.currentAlive hrun.serves with ⟨he, -, -⟩ | ⟨q, flow, hq, hw, -⟩
  · exact he.taskCount
  · exact (select_restrains hw).taskCount.trans (atSelection_evolves hui.currentAlive hq).taskCount

theorem trap_priorities (hi : TaskInv s) (h : trap P s e = .ok v) :
    PrioritiesBelowMax v ↔ PrioritiesBelowMax s := by
  have htable := trap_sameTable hi h
  simp only [PrioritiesBelowMax, Sys.Created, Ne, trap_taskCount hi h, htable.dead,
    config_priority (htable.config _)]

theorem selectable_before (h : trap P s e = .ok v) (hsel : Selectable v i)
    (hnot : ¬ IsTimer e.mcause) : Selectable s i := by
  rcases trap_tick_or_idle h with ⟨x, b, q, ht⟩ | ⟨-, hr, -⟩
  · exact absurd ht.timer hnot
  · exact ⟨hr.taskCount ▸ hsel.1, hr.selectable i hsel.2⟩

theorem current_reachable (h : Reachable (kernel P) anyStep s) (hmany : 2 ≤ s.taskCount)
    (hprio : PrioritiesBelowMax s) (hsel : Selectable s i) :
    s.current.state = .running ∨ s.current.state = .isolated := by
  have hall : 2 ≤ s.taskCount → PrioritiesBelowMax s → ∀ i, Selectable s i →
      s.current.state = .running ∨ s.current.state = .isolated := by
    apply reachable_invariant (I := fun s => 2 ≤ s.taskCount → PrioritiesBelowMax s →
      ∀ i, Selectable s i → s.current.state = .running ∨ s.current.state = .isolated) _ _ h
    · exact fun _ h0 _ _ _ _ => .inl (running_initial h0)
    · intro x e u hx ih _ hu hmany hprio i hsel
      have hi := reachable_taskInv hx
      have hmany' : 2 ≤ x.taskCount := trap_taskCount hi hu ▸ hmany
      by_cases ht : IsTimer e.mcause
      · exact .inl (timer_running hi hmany' hprio hsel ht hu)
      · rcases trap_current hi hmany' hprio hsel hu with hrun | hr
        · exact .inl hrun
        · rcases hr.state with hsame | hiso
          · rw [hsame]
            exact ih hmany' ((trap_priorities hi hu).mp hprio) i (selectable_before hu hsel ht)
          · exact .inr hiso
  exact hall hmany hprio i hsel

theorem noReadyAbove_reachable (h : Reachable (kernel P) anyStep s)
    (hprio : PrioritiesBelowMax s) : NoReadyAbove s := by
  have hall : PrioritiesBelowMax s → NoReadyAbove s :=
    reachable_invariant (I := fun s => PrioritiesBelowMax s → NoReadyAbove s)
      (fun _ h0 _ => noReadyAbove_initial h0)
      (fun _ _ _ hr hs _ hst => noReadyAbove_trap (reachable_taskInv hr) hs hst) h
  exact hall hprio

theorem waiting_trap (hs : Waiting P i s) (hg : StaysSelectable P i s e)
    (h : trap P s e = .ok v) : Waiting P i v := by
  have hi := reachable_taskInv hs.reachable
  refine ⟨hs.reachable.next trivial h, ?_, (trap_priorities hi h).mpr hs.priorities, hg v h⟩
  rw [trap_taskCount hi h]
  exact hs.many

theorem above_trap (hi : TaskInv s) (h : trap P s e = .ok v) : above v i = above s i := by
  have htable := trap_sameTable hi h
  simp only [above, Ne, htable.dead, config_priority (htable.config _)]

theorem current_above (hs : Waiting P i s) :
    s.currentTask = i ∨ s.currentTask ∈ above s i := by
  have hi := reachable_taskInv hs.reachable
  rcases isSelectable_iff.mp hs.selectable.2 with hready | hrunning
  · by_cases hcurrent : s.currentTask = i
    · exact .inl hcurrent
    · have hle := noReadyAbove_reachable hs.reachable hs.priorities i hs.selectable.1 hready
      exact .inr (Finset.mem_filter.mpr ⟨Finset.mem_univ _, hcurrent, hi.currentAlive, hle⟩)
  · exact .inl (hi.running i hrunning).symm

theorem tick_shared (hs : Waiting P i s) : (timerTick s e).toNat ≤
    ∑ j ∈ insert i (above s i), (charged P j s e).toNat +
      (stoppedByPolicy P s e || lateSwitch s e).toNat := by
  cases ht : timerTick s e with
  | false => exact Nat.zero_le _
  | true =>
    rcases current_reachable hs.reachable hs.many hs.priorities hs.selectable with hrun | hiso
    · cases hcharged : charged P s.currentTask s e with
      | true =>
        have hmem : s.currentTask ∈ insert i (above s i) :=
          Finset.mem_insert.mpr (current_above hs)
        have hone := Finset.single_le_sum
          (f := fun j => (charged P j s e).toNat) (fun _ _ => Nat.zero_le _) hmem
        simp only [hcharged, Bool.toNat_true] at hone ⊢
        omega
      | false => simp [stoppedByPolicy, ht, hrun, hcharged]
    · simp [lateSwitch, ht, hiso]

theorem sidelined_le_one (s : Sys) : sidelined s ≤ 1 := by
  rw [sidelined]
  split <;> omega

theorem sidelined_trap (hs : Waiting P i s) (hv : Waiting P i v) (h : trap P s e = .ok v) :
    (lateSwitch s e).toNat + sidelined s ≤ sidelined v := by
  have hi := reachable_taskInv hs.reachable
  have hvi := reachable_taskInv hv.reachable
  have hkept := isolationKept_trap hi h
  have hone : ∀ a b, (v.tasks a).state = .isolated → (v.tasks b).state = .isolated → a = b := by
    intro a b ha hb
    exact hvi.few a b (hvi.created a (by simp [ha])).1 (hvi.created b (by simp [hb])).1 ha hb
  have hfinal : ∀ j, j ≠ v.currentTask → (v.tasks j).state = .isolated → sidelined v = 1 :=
    fun j hj hiso => if_pos ⟨j, hj, hiso⟩
  cases hlate : lateSwitch s e with
  | true =>
    simp only [lateSwitch, Bool.and_eq_true, decide_eq_true_eq] at hlate
    obtain ⟨ht, hiso⟩ := hlate
    have hrun := timer_running hi hs.many hv.priorities hv.selectable (of_decide_eq_true ht) h
    have hstill := hkept s.currentTask hiso
    have hleft : s.currentTask ≠ v.currentTask := by
      intro heq
      rw [Sys.current, ← heq, hstill] at hrun
      cases hrun
    have hnone : sidelined s = 0 := by
      refine if_neg ?_
      rintro ⟨j, hj, hjiso⟩
      exact hj (hone j s.currentTask (hkept j hjiso) hstill)
    rw [hnone, hfinal _ hleft hstill]
    decide
  | false =>
    by_cases hout : ∃ j, j ≠ s.currentTask ∧ (s.tasks j).state = .isolated
    · obtain ⟨j, hj, hjiso⟩ := hout
      have hstill := hkept j hjiso
      have hother : j ≠ v.currentTask := by
        intro heq
        rcases trap_current hi hs.many hv.priorities hv.selectable h with hrun | hr
        · rw [Sys.current, ← heq, hstill] at hrun
          cases hrun
        · exact hj (heq.trans hr.currentTask)
      rw [hfinal j hother hstill]
      simpa using sidelined_le_one s
    · have hnone : sidelined s = 0 := if_neg hout
      simp [hnone]

theorem run_lateSwitch (hs : Waiting P i s) (hg : GuardedRun (kernel P) (StaysSelectable P i) s es)
    (h : run (kernel P) s es = .ok v) : tally (kernel P) lateSwitch s es ≤ 1 := by
  have hstep : ∀ x e u, Waiting P i x → StaysSelectable P i x e → trap P x e = .ok u →
      Waiting P i u ∧ (lateSwitch x e).toNat + sidelined x ≤
        0 * (timerTick x e).toNat + sidelined u := by
    intro x e u hx hge hu
    have hu' := waiting_trap hx hge hu
    have hlate := sidelined_trap hx hu' hu
    exact ⟨hu', by omega⟩
  have hbucket := run_bucket_guarded (M := kernel P) (I := Waiting P i) sidelined hstep hs hg h
  have hfew := sidelined_le_one v
  omega

end

/-- A task above the waiting one along a run in which it keeps a budget. -/
structure Contends (P : Platform) (j : TaskIndex) (s : Sys) (es : List TrapEvent) : Prop where
  reachable : Reachable (kernel P) (Metered P j) s
  metered : GuardedRun (kernel P) (Metered P j) s es

/-- What a run of this many ticks can supply to the task. -/
def supplyBound (P : Platform) (j : TaskIndex) (s : Sys) (es : List TrapEvent) : ℕ :=
  ticksOfBudget (s.tasks j).originalBudget *
    (((s.tasks j).periodCounter + es.countP fun e => decide (IsTimer e.mcause)) /
      (s.tasks j).periodTicks + tally (kernel P) (rearmed P j) s es + 1)

end KernelResponse
