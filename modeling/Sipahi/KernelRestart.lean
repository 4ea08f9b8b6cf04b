import Sipahi.KernelResume
import Sipahi.KernelReference

/-!
# Restart

`restart_task` rewrites the saved context of the task that is live at that moment. The fault path
then returns through the trap frame, which it has not touched, and the tick path saves the live
registers over the new context in `switch_context`.
-/
namespace KernelRestart

open KernelTypes KernelPolicy KernelState KernelTrapFrame KernelScheduler KernelTrap
open KernelEvolution KernelSelection KernelTaskInvariants KernelResume KernelReference
open RiscvHart GuardedExecution

/-- The policy answers `Restart` for the task that the trap interrupts. -/
inductive Restarts (P : Platform) (s : Sys) (e : TrapEvent) : Prop where
  | fault {event} : IsFault e.mcause → event = .taskFault ∨ event = .stackOverflow →
      answer s s.currentTask.val event s.current.dal = .restart → Restarts P s e
  | budget {u args v q₀ q} : IsTimer e.mcause → enterHandler P s e = .ok (u, args) →
      deadlinePhase P u e.mtime = .ok v → tickBeforeWatchdog v = .ok q₀ →
      watchdogPhase P q₀ = .ok q → budgetExhausts (q.tasks s.currentTask) = true →
      answer q (q.tasks s.currentTask).id .budgetExhausted (q.tasks s.currentTask).dal = .restart →
      Restarts P s e

/-- The state a restarted task has to be in when it executes its next instruction. -/
structure AtEntry (h : Hart Slot) (t : Task) : Prop where
  pc : h.pc = t.entry
  sp : h.regs .sp = t.stackTop
  calleeSaved : ∀ r, r.calleeSaved = true → h.regs r = 0

/-- A run in which the task never executes. -/
inductive Away (P : Platform) (task : TaskIndex) : Sys → Sys → Prop where
  | refl {s} : s.currentTask ≠ task → Away P task s s
  | tail {s u e v} : Away P task s u → trap P u e = .ok v → v.currentTask ≠ task →
      Away P task s v

/-- The task trapped by `e` in `s` executes again in `w`, after the trap `e'`. -/
inductive NextRun (P : Platform) (s : Sys) (e : TrapEvent) : Sys → TrapEvent → Prop where
  | atOnce {w} : trap P s e = .ok w → w.currentTask = s.currentTask → NextRun P s e w e
  | later {v x w e'} : trap P s e = .ok v → Away P s.currentTask v x → trap P x e' = .ok w →
      w.currentTask = s.currentTask → NextRun P s e w e'

section

variable {P : Platform} {s v w x : Sys} {e e' : TrapEvent} {task : TaskIndex}

theorem Away.ends (h : Away P task s x) : x.currentTask ≠ task := by
  cases h with
  | refl hs => exact hs
  | tail _ _ hv => exact hv

theorem Away.starts (h : Away P task s x) : s.currentTask ≠ task := by
  induction h with
  | refl hs => exact hs
  | tail _ _ _ ih => exact ih

theorem Away.reachable (h : Away P task s x) (hr : Reachable (kernel P) anyStep s) :
    Reachable (kernel P) anyStep x := by
  induction h with
  | refl _ => exact hr
  | tail _ hv _ ih => exact ih.next trivial hv

theorem Away.kept (h : Away P task s x) (hr : Reachable (kernel P) anyStep s) :
    (∀ offset, x.hart.mem (.context task offset) = s.hart.mem (.context task offset)) ∧
      SameTable s x := by
  induction h with
  | refl _ => exact ⟨fun _ => rfl, fun _ => rfl, fun _ => Iff.rfl⟩
  | tail hu hv _ ih =>
    have hi := reachable_taskInv (hu.reachable hr)
    have ht := trap_sameTable hi hv
    exact ⟨fun o => (trap_contexts hi hv hu.ends.symm o).trans (ih.1 o),
      fun i => (ht.config i).trans (ih.2.config i), fun i => (ht.dead i).trans (ih.2.dead i)⟩

theorem isEcall_false (h : Restarts P s e) : isEcall e.mcause = false := by
  have hne : ¬ (e.mcause = 8 ∨ e.mcause = 11) := by
    cases h with
    | fault hf _ _ => exact hf.2
    | budget ht _ _ _ _ _ _ =>
      rintro (hc | hc)
      · exact ht.1 (by rw [hc]; decide)
      · exact ht.1 (by rw [hc]; decide)
  rw [not_or] at hne
  simp [isEcall, hne.1, hne.2]

theorem trap_atOnce (hi : TaskInv s) (h : trap P s e = .ok w)
    (hcur : w.currentTask = s.currentTask) (hint : isEcall e.mcause = false) :
    Resumes w.hart (ownContext e (trapResult P s e)) := by
  cases trap_ends hi h with
  | stays he _ _ => exact he.resumes _
  | switches _ he _ _ _ hs hflow =>
    rw [switched_current hs] at hcur
    subst hcur
    exact switch_toItself he hs hflow hint _

theorem trap_parks (hi : TaskInv s) (h : trap P s e = .ok v)
    (hne : v.currentTask ≠ s.currentTask) : Parked P e s.currentTask v.hart := by
  cases trap_ends hi h with
  | @stays w _ hcur _ =>
    rw [(leaveHandler_sameKernel P w _).currentTask] at hne
    exact absurd hcur hne
  | switches _ he _ _ _ hs _ => exact switch_parks he hs

theorem trap_reloads (hi : TaskInv x) (h : trap P x e' = .ok w) (hcur : w.currentTask = task)
    (hne : x.currentTask ≠ task) (hra : x.hart.mem (.context task 0) = P.switchReturn) :
    Reloaded P x e' task w.hart := by
  subst hcur
  cases trap_ends hi h with
  | @stays u _ hcur _ =>
    rw [(leaveHandler_sameKernel P u _).currentTask] at hne
    exact absurd hcur.symm hne
  | switches _ he _ _ _ hs hflow =>
    rw [switched_current hs] at hne hra ⊢
    exact switch_reloads he hs hflow hne.symm hra

/-- What the task executes next with, restarted or not. -/
structure ContinuesFrom (P : Platform) (e e' : TrapEvent) (h : Hart Slot) : Prop where
  pc : h.pc = e.pc
  sp : h.regs .sp = e.regs .sp
  calleeSaved : ∀ r, r.calleeSaved = true →
    h.regs r = if P.spilled r then e'.regs r else e.regs r

theorem nextRun_continues (hr : Reachable (kernel P) anyStep s) (hint : isEcall e.mcause = false)
    (h : NextRun P s e w e') : ContinuesFrom P e e' w.hart ∧ SameTable s w ∧
      w.currentTask = s.currentTask := by
  have hi := reachable_taskInv hr
  cases h with
  | atOnce hw hcur =>
    have hres := trap_atOnce hi hw hcur hint
    refine ⟨⟨?_, ?_, fun r hc => ?_⟩, trap_sameTable hi hw, hcur⟩
    · rw [hres.pc]
      simp [ownContext, resumePc, hint]
    · rw [hres.regs, ownContext_calleeSaved e _ (by simp)]
    · rw [hres.regs, ownContext_calleeSaved e _ (by rintro rfl; cases hc), ite_self]
  | @later v x _ _ hv haway hw hcur =>
    have hrv : Reachable (kernel P) anyStep v := hr.next trivial hv
    have hix := reachable_taskInv (haway.reachable hrv)
    obtain ⟨hmem, htable⟩ := haway.kept hrv
    have hp := trap_parks hi hv haway.starts
    have hl := trap_reloads hix hw hcur haway.ends ((hmem 0).trans hp.ra)
    refine ⟨⟨?_, ?_, fun r hc => ?_⟩, ?_, hcur⟩
    · rw [hl.pc, hmem, hp.mepc]
    · rw [hl.sp, hmem, hp.sp]
    · rw [hl.calleeSaved r hc]
      by_cases hs : P.spilled r = true
      · simp [hs]
      · rw [Bool.not_eq_true] at hs
        simp [hs, hmem, hp.calleeSaved r hc hs]
    · have h₁ := trap_sameTable hi hv
      have h₂ := trap_sameTable hix hw
      exact ⟨fun i => (h₂.config i).trans ((htable.config i).trans (h₁.config i)),
        fun i => (h₂.dead i).trans ((htable.dead i).trans (h₁.dead i))⟩

end

/-- A restarted task executes its next instruction at its entry exactly when it trapped there,
with the stack empty and the callee-saved registers clear; for the registers that the handler
spills, those of the trap that gives the CPU back count. -/
theorem restart_restarts_iff {P : Platform} {s w : Sys} {e e' : TrapEvent}
    (h : Reachable (kernel P) anyStep s) (hr : Restarts P s e) (hn : NextRun P s e w e') :
    AtEntry w.hart w.current ↔ e.pc = s.current.entry ∧ e.regs .sp = s.current.stackTop ∧
      ∀ r, r.calleeSaved = true → (if P.spilled r then e'.regs r else e.regs r) = 0 := by
  obtain ⟨hc, htable, hcur⟩ := nextRun_continues h (isEcall_false hr) hn
  have hentry : w.current.entry = s.current.entry := by
    simp only [Sys.current]
    rw [hcur, config_entry (htable.config _)]
  have hstack : w.current.stackTop = s.current.stackTop := by
    simp only [Sys.current]
    rw [hcur, config_stackTop (htable.config _)]
  constructor
  · intro ha
    refine ⟨?_, ?_, fun r hs => ?_⟩
    · rw [← hc.pc, ha.pc, hentry]
    · rw [← hc.sp, ha.sp, hstack]
    · rw [← hc.calleeSaved r hs, ha.calleeSaved r hs]
  · rintro ⟨hpc, hsp, hregs⟩
    refine ⟨?_, ?_, fun r hs => ?_⟩
    · rw [hc.pc, hpc, hentry]
    · rw [hc.sp, hsp, hstack]
    · rw [hc.calleeSaved r hs, hregs r hs]

/-- An illegal instruction at the given address. -/
def illegalAt (pc : ℕ) (sp : ℕ) : TrapEvent :=
  trapAt 2 pc fun r => if r = .sp then sp else 0

theorem first_fault (e : TrapEvent) (he : IsFault e.mcause)
    (hrun : endsWith (scenario bootInit [e]) (fun w =>
      decide (w.currentTask = 0 ∧ w.current.state ≠ .isolated)) = true) :
    ∃ s w, Reachable (kernel referencePlatform) anyStep s ∧ Restarts referencePlatform s e ∧
      NextRun referencePlatform s e w e ∧ s.current.entry = 0x80001000 ∧
      s.current.stackTop = 0x80016000 ∧ w.current.state ≠ .isolated := by
  obtain ⟨w, hw, ht⟩ := endsWith_iff.mp hrun
  obtain ⟨hcur, hiso⟩ := of_decide_eq_true ht
  obtain ⟨s, hs, hstep⟩ := scenario_append [] hw
  rw [run_singleton] at hstep
  obtain ⟨s', hs', ht'⟩ := endsWith_iff.mp (show endsWith (scenario bootInit [])
    (fun s => decide (s.currentTask = 0 ∧ s.current.entry = 0x80001000 ∧
      s.current.stackTop = 0x80016000 ∧
      answer s s.currentTask.val .taskFault s.current.dal = .restart)) = true by decide +kernel)
  obtain rfl : s = s' := Except.ok.inj (hs.symm.trans hs')
  obtain ⟨hcur', hentry, hstack, hans⟩ := of_decide_eq_true ht'
  exact ⟨s, w, scenario_reachable hs, .fault he (Or.inl rfl) hans,
    .atOnce hstep (hcur.trans hcur'.symm), hentry, hstack, hiso⟩

theorem restart_at_entry : ∃ s w,
    Restarts referencePlatform s (illegalAt 0x80001000 0x80016000) ∧
      NextRun referencePlatform s (illegalAt 0x80001000 0x80016000) w
        (illegalAt 0x80001000 0x80016000) ∧ AtEntry w.hart w.current := by
  obtain ⟨s, w, hr, hres, hn, hentry, hstack, -⟩ :=
    first_fault (illegalAt 0x80001000 0x80016000) (by decide) (by decide +kernel)
  refine ⟨s, w, hres, hn, (restart_restarts_iff hr hres hn).mpr ⟨hentry.symm, hstack.symm, ?_⟩⟩
  intro r hc
  have hzero : (illegalAt 0x80001000 0x80016000).regs r = 0 := if_neg (calleeSaved_ne_sp hc)
  rw [hzero, ite_self]

/-- A fault in the middle of the task is answered with `Restart`, and the task goes on at the
faulting instruction. -/
theorem restart_resumes_fault : ¬ ∀ (P : Platform) (s w : Sys) (e e' : TrapEvent),
    Reachable (kernel P) anyStep s → Restarts P s e → NextRun P s e w e' →
    w.current.state ≠ .isolated → AtEntry w.hart w.current := by
  intro h
  obtain ⟨s, w, hr, hres, hn, hentry, -, hiso⟩ :=
    first_fault (illegalAt 0x80001234 0x80015F00) (by decide) (by decide +kernel)
  have ha := h _ s w _ _ hr hres hn hiso
  obtain ⟨hc, htable, hcur⟩ := nextRun_continues hr (isEcall_false hres) hn
  have hpc : w.hart.pc = 0x80001000 := by
    rw [ha.pc, ← hentry]
    simp only [Sys.current]
    rw [hcur, config_entry (htable.config _)]
  rw [hc.pc] at hpc
  exact absurd hpc (by decide)

end KernelRestart
