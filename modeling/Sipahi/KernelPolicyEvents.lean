import Sipahi.KernelPolicyCalls
import Sipahi.KernelFrame

/-!
# Which part of a trap asks about which event

The system itself is asked about under an id of its own, so every decision about a task comes
from the one place that raises its event.
-/
namespace KernelPolicyEvents

open KernelTypes KernelPolicy KernelState KernelTrapFrame KernelScheduler KernelSyscall KernelTrap
open KernelSelection KernelFrame KernelPolicyLadder KernelPolicyCalls RiscvHart GuardedExecution

variable {P : Platform} {s u : Sys} {i : TaskIndex} {event : PolicyEvent}

theorem not_asked_nil : ¬ Asked i event [] := by
  rintro ⟨d, hd, -⟩
  exact absurd hd List.not_mem_nil

theorem asked_append {a b : List Decision} :
    Asked i event (a ++ b) ↔ Asked i event a ∨ Asked i event b := by
  simp only [Asked, List.mem_append, or_and_right, exists_or]

theorem systemTaskId_ne (i : TaskIndex) : systemTaskId ≠ i.val := by
  have hi := i.isLt
  simp only [systemTaskId, maxTasks] at hi ⊢
  omega

/-- Decisions about the system are about no task. -/
theorem not_asked_system {mode : PolicyEvent} {dal : ℕ} :
    ¬ Asked i event [consulted s systemTaskId mode dal] := by
  rintro ⟨d, hd, htask, -⟩
  obtain rfl := List.mem_singleton.mp hd
  exact systemTaskId_ne i htask

theorem not_asked_isolate {id : TaskIndex} : ¬ Asked i event (isolateDecisions s id) := by
  simp only [isolateDecisions]
  split
  · exact not_asked_system
  · exact not_asked_nil

theorem not_asked_action {id : TaskIndex} {mode : FailureMode} :
    ¬ Asked i event (actionDecisions s id mode) := by
  cases mode with
  | isolate => exact not_asked_isolate
  | restart | degrade | failover | alert | shutdown => exact not_asked_nil

theorem asked_respond {id : TaskIndex} {taskId dal : ℕ} {raised : PolicyEvent} :
    Asked i event (respondDecisions s id taskId raised dal) ↔ taskId = i.val ∧ raised = event := by
  constructor
  · rintro ⟨d, hd, hcall⟩
    rcases List.mem_cons.mp hd with rfl | hd
    · exact hcall
    · exact absurd ⟨d, hd, hcall⟩ not_asked_action
  · intro hcall
    exact ⟨_, List.mem_cons_self, hcall⟩

/-! ## The handlers -/

/-- A part that runs only when the one before it returned. -/
theorem asked_onOk {α : Type} {x : Except Halt α} {f : α → List Decision} :
    Asked i event (onOk x f) ↔ ∃ a, x = .ok a ∧ Asked i event (f a) := by
  cases x with
  | error => simp [onOk, not_asked_nil]
  | ok a => simp [onOk]

theorem asked_deadline {mtime : ℕ} (h : Asked i event (deadlineDecisions s mtime)) :
    event = .deadlineMiss := by
  simp only [deadlineDecisions] at h
  split at h
  · exact absurd h not_asked_nil
  · split at h
    · exact (asked_respond.mp h).2.symm
    · exact absurd h not_asked_nil

theorem not_asked_integrity : ¬ Asked i event (integrityDecisions s) := by
  rw [integrityDecisions]
  split
  · exact not_asked_nil
  · exact not_asked_system

theorem asked_watchdogTask {w : TaskIndex} :
    Asked i event (watchdogTaskDecisions s w) ↔
      w.val < s.taskCount ∧ watchdogTimesOut (s.tasks w) = true ∧ (s.tasks w).id = i.val ∧
        event = .watchdogTimeout := by
  simp only [watchdogTaskDecisions]
  split
  · rename_i hin
    split
    · rename_i hout
      rw [asked_respond]
      simp only [hin, hout, true_and, eq_comm]
    · rename_i hlow
      simp [not_asked_nil, hlow]
  · rename_i hout
    simp only [not_asked_nil, hout, false_and]

theorem asked_watchdog {ws : List TaskIndex} (h : Asked i event (watchdogDecisions P s ws)) :
    event = .watchdogTimeout := by
  induction ws generalizing s with
  | nil => exact absurd h not_asked_nil
  | cons w ws ih =>
    rw [watchdogDecisions, asked_append, asked_onOk] at h
    rcases h with hw | ⟨q, -, hrest⟩
    · exact (asked_watchdogTask.mp hw).2.2.2
    · exact ih hrest

theorem asked_budget {old : TaskIndex} (h : Asked i event (budgetDecisions s old)) :
    event = .budgetExhausted := by
  simp only [budgetDecisions] at h
  split at h
  · exact (asked_respond.mp h).2.symm
  · exact absurd h not_asked_nil

theorem asked_recordCap {ok : Bool} :
    Asked i event (recordCapDecisions s ok) ↔
      ok = false ∧ 3 ≤ saturatingAdd8 (s.capFailCount s.currentTask) 1 ∧ s.currentTask = i ∧
        event = .capViolation := by
  simp only [recordCapDecisions]
  split
  · rename_i hok
    simp [not_asked_nil, hok]
  · rename_i hfail
    split
    · rename_i hthree
      rw [asked_respond, Fin.val_inj]
      simp only [Bool.eq_false_iff.mpr hfail, hthree, true_and, eq_comm]
    · rename_i hfew
      simp only [not_asked_nil, hfew, false_and, and_false]

theorem asked_capInvoke_event {cap resource action : ℕ}
    (h : Asked i event (capInvokeDecisions P s cap resource action)) : event = .capViolation := by
  rw [capInvokeDecisions] at h
  split at h
  · exact absurd h not_asked_nil
  · split at h
    · exact absurd h not_asked_nil
    · exact (asked_recordCap.mp h).2.2.2

theorem asked_kick (h : Asked i event (kickDecisions s)) :
    s.current.id = i.val ∧ event = .watchdogTimeout := by
  simp only [kickDecisions] at h
  split at h
  · exact ⟨(asked_respond.mp h).1, (asked_respond.mp h).2.symm⟩
  · exact absurd h not_asked_nil

theorem asked_taskFault (h : Asked i event (taskFaultDecisions s)) : event = .taskFault := by
  rw [taskFaultDecisions] at h
  split at h
  · exact (asked_respond.mp h).2.symm
  · exact absurd h not_asked_nil

theorem asked_accessFault {faultAddr : ℕ} (h : Asked i event (accessFaultDecisions P s faultAddr)) :
    event = .stackOverflow ∨ event = .taskFault := by
  rw [accessFaultDecisions] at h
  split at h
  · exact Or.inl (asked_respond.mp h).2.symm
  · exact Or.inr (asked_taskFault h)

theorem asked_tick (h : Asked i event (tickDecisions P s)) :
    event = .watchdogTimeout ∨ event = .budgetExhausted := by
  simp only [tickDecisions, accountingDecisions, asked_append, asked_onOk] at h
  rcases h with h | ⟨_, -, h | ⟨_, -, h⟩⟩
  · exact absurd h not_asked_integrity
  · exact Or.inl (asked_watchdog h)
  · exact Or.inr (asked_budget h)

theorem asked_timer {mtime : ℕ} (h : Asked i event (timerDecisions P s mtime)) :
    event = .deadlineMiss ∨ event = .watchdogTimeout ∨ event = .budgetExhausted := by
  rw [timerDecisions, asked_append, asked_onOk] at h
  rcases h with h | ⟨q, -, h⟩
  · exact Or.inl (asked_deadline h)
  · split at h
    · exact absurd h not_asked_nil
    · exact Or.inr (asked_tick h)

theorem asked_syscall {syscallId arg0 arg1 arg2 : ℕ}
    (h : Asked i event (dispatchDecisions P s syscallId arg0 arg1 arg2)) :
    syscallId = sysCapInvokeId ∧ event = .capViolation ∨
      syscallId = sysYieldId ∧ event = .watchdogTimeout ∧
        (incrementSyscallCount s).current.id = i.val := by
  rw [dispatchDecisions] at h
  split at h
  · exact absurd h not_asked_nil
  · simp only [syscallDecisions] at h
    split at h
    · exact Or.inl ⟨rfl, asked_capInvoke_event h⟩
    · exact Or.inr ⟨rfl, (asked_kick h).2, (asked_kick h).1⟩
    · exact absurd h not_asked_isolate
    · exact absurd h not_asked_nil

/-! ## The trap -/

section

variable {e : TrapEvent} {args : Reg → ℕ}

/-- A trap out of U-mode passes the check of the previous privilege. -/
theorem entered_userMode (h : enterHandler P s e = .ok (u, args)) (mcause : ℕ) :
    verifyMppIsUserMode u mcause = .ok () := by
  obtain ⟨k, hk, -, rfl⟩ := enterHandler_ok h
  have hstatus : k.csrs .mstatus = mstatusUser :=
    (trapEntry_entered hk).csrs .mstatus (by decide)
  rw [verifyMppIsUserMode, if_neg]
  rintro ⟨-, hmpp⟩
  exact hmpp (by simp [handlerPrologue, hstatus, mstatusUser, mppOf])

theorem trapDecisions_timer (h : enterHandler P s e = .ok (u, args)) (ht : IsTimer e.mcause) :
    trapDecisions P s e = timerDecisions P u e.mtime := by
  simp only [trapDecisions, h, onOk, handlerDecisions]
  rw [(entered_args h).mcause, if_pos ht.1, if_pos ht.2]

theorem trapDecisions_syscall (h : enterHandler P s e = .ok (u, args)) (he : IsEcall e.mcause) :
    trapDecisions P s e =
      dispatchDecisions P u (e.regs .a7) (e.regs .a0) (e.regs .a1) (e.regs .a2) := by
  have ha := entered_args h
  simp only [trapDecisions, h, onOk, handlerDecisions]
  rw [ha.mcause, ha.syscallId, ha.arg0, ha.arg1, ha.arg2, if_neg (not_not.mpr he.1)]
  have hmode := entered_userMode h e.mcause
  rcases he.2 with hc | hc
  · rw [hc] at hmode ⊢
    simp only [exceptionDecisions, hmode, onOk]
  · rw [hc] at hmode ⊢
    simp only [exceptionDecisions, hmode, onOk]

theorem asked_fault {mcause syscallId arg0 arg1 arg2 : ℕ} (hno : ¬ (mcause = 8 ∨ mcause = 11))
    (h : Asked i event (exceptionDecisions P s mcause syscallId arg0 arg1 arg2)) :
    event = .stackOverflow ∨ event = .taskFault := by
  simp only [exceptionDecisions] at h
  split at h
  case h_1 | h_2 => exact absurd (by simp) hno
  case h_3 | h_4 | h_5 | h_6 | h_7 => exact Or.inr (asked_taskFault h)
  case h_8 | h_9 => exact asked_accessFault h
  all_goals exact absurd h not_asked_nil

/-- A trap that is neither a tick nor a system call asks about faults only. -/
theorem asked_other (ht : ¬ IsTimer e.mcause) (he : ¬ IsEcall e.mcause)
    (h : Asked i event (trapDecisions P s e)) : event = .stackOverflow ∨ event = .taskFault := by
  cases hu : enterHandler P s e with
  | error =>
    simp only [trapDecisions, hu, onOk] at h
    exact absurd h not_asked_nil
  | ok entered =>
    simp only [trapDecisions, hu, onOk, handlerDecisions] at h
    rw [(entered_args hu).mcause] at h
    split at h
    · rename_i hint
      rw [if_neg fun h7 => ht ⟨hint, h7⟩] at h
      exact absurd h not_asked_nil
    · rename_i hint
      exact asked_fault (fun hc => he ⟨not_not.mp hint, hc⟩) h

end

end KernelPolicyEvents
