import Sipahi.KernelTaskInvariants

/-!
# The registers at the end of a trap

Between entry and exit the registers of the trapping task live in the trap frame, on the kernel
stack and in the callee-saved registers the handler does not use. A trap without a switch puts
them back; a switch takes part of them from the context of the next task and leaves the rest.
-/
namespace KernelResume

open KernelTypes KernelPolicy KernelState KernelTrapFrame KernelScheduler KernelSyscall KernelTrap
open KernelEvolution KernelSelection KernelBoot KernelTaskInvariants RiscvHart GuardedExecution

/-- Where the register file of a trap is kept while the handler runs. The context of the trapping
task itself is free for the policy to rewrite. -/
structure Entered (P : Platform) (s : Sys) (e : TrapEvent) (h : Hart Slot) : Prop where
  frame : ∀ r, callerSaved r = true → h.mem (.frame (frameOffset r)) = e.regs r
  userSp : h.mem (.frame 256) = e.regs .sp
  cause : h.mem (.frame 128) = e.mcause
  framePc : h.mem (.frame 136) = resumePc e.mcause e.pc
  kernelStack : ∀ r, P.spilled r = true → h.mem (.kernelStack r) = e.regs r
  calleeSaved : ∀ r, r.calleeSaved = true → P.spilled r = false → h.regs r = e.regs r
  reserved : ∀ r, r.reserved = true → h.regs r = e.regs r
  mepc : h.csrs .mepc = e.pc
  mstatus : h.csrs .mstatus = mstatusUser
  contexts : ∀ i offset, i ≠ s.currentTask →
    h.mem (.context i offset) = s.hart.mem (.context i offset)

theorem calleeSaved_ne_sp {r : Reg} (h : r.calleeSaved = true) : r ≠ .sp := by
  rintro rfl
  cases h

theorem enterHandler_entered {P : Platform} {s u : Sys} {e : TrapEvent} {args : Reg → ℕ}
    (h : enterHandler P s e = .ok (u, args)) : Entered P s e u.hart := by
  obtain ⟨k, hk, -, rfl⟩ := enterHandler_ok h
  have he := trapEntry_entered hk
  refine ⟨he.frame, he.userSp, he.cause, he.pc, fun r hr => ?_, fun r hr hs => ?_, fun r hr => ?_,
    ?_, ?_, fun i offset _ => he.contexts i offset⟩
  · simp only [handlerPrologue, hr, if_true]
    exact he.calleeSaved r (P.spilled_calleeSaved r hr)
  · simp only [handlerPrologue, hr, hs, and_self, or_true, if_true]
    exact he.calleeSaved r hr
  · simp only [handlerPrologue, hr, true_or, or_true, if_true]
    exact he.reserved r hr
  · exact he.csrs .mepc (by simp)
  · exact he.csrs .mstatus (by simp)

theorem Entered.kept {P : Platform} {s : Sys} {e : TrapEvent} {h k : Hart Slot}
    (he : Entered P s e h) (hk : HartKept s.currentTask h k) : Entered P s e k where
  frame := fun r hr => (hk.frame _).trans (he.frame r hr)
  userSp := (hk.frame _).trans he.userSp
  cause := (hk.frame _).trans he.cause
  framePc := (hk.frame _).trans he.framePc
  kernelStack := fun r hr => (hk.kernelStack r).trans (he.kernelStack r hr)
  calleeSaved := fun r hr hs => by rw [hk.regs]; exact he.calleeSaved r hr hs
  reserved := fun r hr => by rw [hk.regs]; exact he.reserved r hr
  mepc := by rw [hk.csrs]; exact he.mepc
  mstatus := by rw [hk.csrs]; exact he.mstatus
  contexts := fun i o hi => (hk.contexts i o hi).trans (he.contexts i o hi)

/-- A register file with the address to continue at. -/
structure UserContext where
  regs : Reg → ℕ
  pc : ℕ

structure Resumes (h : Hart Slot) (ctx : UserContext) : Prop where
  regs : ∀ r, h.regs r = ctx.regs r
  pc : h.pc = ctx.pc
  userMode : h.userMode = true

/-- What the trapped task has to continue with when the handler answers `result`. -/
def ownContext (e : TrapEvent) (result : ℕ) : UserContext where
  regs := if isEcall e.mcause then Function.update e.regs .a0 result else e.regs
  pc := resumePc e.mcause e.pc

theorem ownContext_calleeSaved (e : TrapEvent) (result : ℕ) {r : Reg} (h : r ≠ .a0) :
    (ownContext e result).regs r = e.regs r := by
  rw [ownContext]
  split
  · exact Function.update_of_ne h ..
  · rfl

theorem handlerEpilogue_calleeSaved {P : Platform} {h : Hart Slot} {regs : Reg → ℕ} {r : Reg}
    (hs : P.spilled r = true → h.mem (.kernelStack r) = regs r)
    (hk : P.spilled r = false → h.regs r = regs r) :
    (handlerEpilogue P h).regs r = regs r := by
  rw [handlerEpilogue]
  by_cases hr : P.spilled r = true
  · simpa [hr] using hs hr
  · rw [Bool.not_eq_true] at hr
    simpa [hr] using hk hr

theorem reg_cases (r : Reg) :
    r = .sp ∨ r.reserved = true ∨ callerSaved r = true ∨ r.calleeSaved = true := by
  cases r <;> decide

/-- Whoever runs next finds `gp` and `tp` as the interrupted task left them. -/
theorem leaveHandler_reserved {P : Platform} {w : Sys} {r : Option ℕ} {regs : Reg → ℕ} {reg : Reg}
    (hw : w.hart.regs reg = regs reg) (hreg : reg.reserved = true) :
    (leaveHandler P (w, r)).hart.regs reg = regs reg := by
  cases r with
  | none => exact ((taskTrampoline_trampolined P w.hart).reserved reg hreg).trans hw
  | some x =>
    have hspill : ¬ P.spilled reg = true := by
      intro hs
      have := P.spilled_calleeSaved reg hs
      revert hreg this
      cases reg <;> decide
    refine ((trapExit_left (handlerEpilogue P w.hart) x).reserved reg hreg).trans ?_
    rw [handlerEpilogue]
    dsimp only
    rw [if_neg hspill, hw]

/-- Trap exit without a switch. -/
theorem Entered.resumes {P : Platform} {s : Sys} {e : TrapEvent} {h : Hart Slot}
    (he : Entered P s e h) (result : ℕ) :
    Resumes (trapExit (handlerEpilogue P h) result) (ownContext e result) := by
  have hl := trapExit_left (handlerEpilogue P h) result
  refine ⟨fun r => ?_, ?_, ?_⟩
  · rcases reg_cases r with rfl | hr | hr | hr
    · rw [hl.sp, ownContext_calleeSaved e result (by simp)]
      exact he.userSp
    · rw [ownContext_calleeSaved e result (by rintro rfl; cases hr)]
      exact leaveHandler_reserved (w := { s with hart := h }) (r := some result) (he.reserved r hr) hr
    · have hcause : (handlerEpilogue P h).mem (.frame 128) = e.mcause := he.cause
      rw [hl.callerSaved r hr, hcause]
      rw [ownContext]
      by_cases hecall : isEcall e.mcause = true
      · by_cases ha : r = .a0
        · subst r
          simp [hecall]
        · simp only [ha, hecall, false_and, if_false, if_true]
          rw [Function.update_of_ne ha]
          exact he.frame r hr
      · simp only [hecall, Bool.false_eq_true, and_false, if_false]
        exact he.frame r hr
    · rw [hl.calleeSaved r hr, ownContext_calleeSaved e result (by rintro rfl; cases hr)]
      exact handlerEpilogue_calleeSaved (he.kernelStack r) (he.calleeSaved r hr)
  · rw [hl.pc]
    exact he.framePc
  · rw [hl.userMode]
    have hm : (handlerEpilogue P h).csrs .mstatus = mstatusUser := he.mstatus
    rw [hm]
    rfl

/-! ## Traps with and without a switch -/

/-- The trap up to the return of `trap_handler`. -/
def handleTrap (P : Platform) (s : Sys) (e : TrapEvent) : Except Halt (Sys × Option ℕ) := do
  let (u, args) ← enterHandler P s e
  trapHandler P u e.mtime (args .a0) (args .a2) (args .a3) (args .a4) (args .a5)

/-- What `trap_handler` returns; a handler that is left through `task_trampoline` has not returned
yet, and it is a yield or an exit that will answer `E_OK`. -/
def trapResult (P : Platform) (s : Sys) (e : TrapEvent) : ℕ :=
  match handleTrap P s e with
  | .ok (_, some r) => r
  | _ => errOk

/-- The same slots hold the same tasks. -/
structure SameTable (s u : Sys) : Prop where
  config : ∀ i, config (u.tasks i) = config (s.tasks i)
  dead : ∀ i, (u.tasks i).state = .dead ↔ (s.tasks i).state = .dead

theorem sameTable_evolves {s u w : Sys} (hin : SameKernel s u) (he : Evolves u w) :
    SameTable s w :=
  ⟨fun i => by rw [he.config i, hin.tasks], fun i => by rw [he.dead i, hin.tasks]⟩

inductive TrapEnds (P : Platform) (s : Sys) (e : TrapEvent) : Sys → Prop where
  | stays {w} : Entered P s e w.hart → w.currentTask = s.currentTask →
      SameTable s w → TrapEnds P s e (leaveHandler P (w, some (trapResult P s e)))
  | switches {q next w flow r} : SelectsAt P s e q → Entered P s e q.hart →
      q.currentTask = s.currentTask → SameTable s q →
      switchTarget q s.currentTask = some next → Switched P q s.currentTask next w flow →
      (r = none ↔ flow = .trampoline) → TrapEnds P s e (leaveHandler P (w, r))

theorem trap_ends {P : Platform} {s v : Sys} {e : TrapEvent} (hi : TaskInv s)
    (h : trap P s e = .ok v) : TrapEnds P s e v := by
  rw [trap] at h
  obtain ⟨⟨u, args⟩, hu, h⟩ := bind_eq_ok.mp h
  obtain ⟨⟨w, r⟩, hw, h⟩ := bind_eq_ok.mp h
  obtain rfl := Except.ok.inj h
  have hresult : ∀ x, r = some x → trapResult P s e = x := by
    rintro x rfl
    have hall : handleTrap P s e = .ok (w, some x) := bind_eq_ok.mpr ⟨(u, args), hu, hw⟩
    rw [trapResult]
    rw [hall]
  have hin := entered_sameKernel hu
  have hent := enterHandler_entered hu
  have hui := taskInv_sameKernel hin hi
  have stays : ∀ w', Evolves u w' → (∃ x, r = some x) → TrapEnds P s e (leaveHandler P (w', r)) := by
    rintro w' he ⟨x, rfl⟩
    rw [← hresult x rfl]
    refine .stays (hent.kept ?_) (he.currentTask.trans hin.currentTask) (sameTable_evolves hin he)
    rw [← hin.currentTask]
    exact he.hart
  rcases serves_cases hui.currentAlive (trapHandler_serves hw) with ⟨he, -, hx⟩ |
    ⟨q, flow, hq, hsel, hflow⟩
  · exact stays w he hx
  · have he := atSelection_evolves hui.currentAlive hq
    rcases select_cases hsel with ⟨-, rfl, rfl⟩ | ⟨next, ht, hs⟩
    · refine stays w he (Option.ne_none_iff_exists'.mp fun hn => ?_)
      cases hflow.mp hn
    · rw [hin.currentTask] at ht hs
      refine .switches ⟨u, args, hu, hq⟩ (hent.kept ?_) (he.currentTask.trans hin.currentTask)
        (sameTable_evolves hin he) ht hs hflow
      rw [← hin.currentTask]
      exact he.hart

section

variable {P : Platform} {s v : Sys} {e : TrapEvent}

theorem trap_sameTable (hi : TaskInv s) (h : trap P s e = .ok v) : SameTable s v := by
  cases trap_ends hi h with
  | @stays w _ _ ht =>
    have hout := (leaveHandler_sameKernel P w (some (trapResult P s e))).tasks
    exact ⟨fun i => by rw [hout]; exact ht.config i, fun i => by rw [hout]; exact ht.dead i⟩
  | @switches q next w flow r _ _ _ ht htarget hs _ =>
    have hout := (leaveHandler_sameKernel P w r).tasks
    obtain ⟨pmp, rfl⟩ := hs.state
    have halive := selectable_alive (selectNext_some (switchTarget_some htarget).2.1).1
    refine ⟨fun i => ?_, fun i => ?_⟩
    · rw [hout]
      exact (handOver_config ..).trans (ht.config i)
    · rw [hout]
      exact (handOver_dead _ halive i).trans (ht.dead i)

theorem leaveHandler_contexts (P : Platform) (w : Sys) (r : Option ℕ) (i : TaskIndex)
    (offset : ℕ) : (leaveHandler P (w, r)).hart.mem (.context i offset) =
      w.hart.mem (.context i offset) := by
  cases r with
  | none => exact congrFun (taskTrampoline_trampolined P w.hart).mem _
  | some x => exact (trapExit_left (handlerEpilogue P w.hart) x).contexts i offset

/-- A trap writes no context but that of the task it interrupts. -/
theorem trap_contexts (hi : TaskInv s) (h : trap P s e = .ok v) {i : TaskIndex}
    (hne : i ≠ s.currentTask) (offset : ℕ) :
    v.hart.mem (.context i offset) = s.hart.mem (.context i offset) := by
  cases trap_ends hi h with
  | stays he _ _ =>
    rw [leaveHandler_contexts]
    exact he.contexts i offset hne
  | switches _ he _ _ _ hs _ =>
    rw [leaveHandler_contexts]
    obtain ⟨pmp, rfl⟩ := hs.state
    rw [(switchContext_saved P _ _ _).contexts i offset hne]
    exact he.contexts i offset hne

theorem switched_current {q w : Sys} {old next : TaskIndex} {flow : Flow} {r : Option ℕ}
    (hs : Switched P q old next w flow) : (leaveHandler P (w, r)).currentTask = next := by
  rw [(leaveHandler_sameKernel P w r).currentTask]
  obtain ⟨pmp, rfl⟩ := hs.state
  rfl

theorem switched_hart {q w : Sys} {old next : TaskIndex} {flow : Flow}
    (hs : Switched P q old next w flow) : w.hart = switchContext P q.hart old next := by
  obtain ⟨pmp, rfl⟩ := hs.state
  rfl

/-- The context decides whether the next task starts or continues. -/
theorem switched_flow {q w : Sys} {old next : TaskIndex} {flow : Flow}
    (hs : Switched P q old next w flow) :
    flow = .trampoline ↔ w.hart.mem (.context next 0) = P.taskTrampoline := by
  have hpc := hs.flow
  rw [(switchContext_loaded P q.hart old next).pc, ← switched_hart hs] at hpc
  rw [hpc]
  cases flow with
  | resume => simpa using P.switchReturn_ne
  | trampoline => simp

/-! ## The task that gets the CPU -/

/-- First instruction of a task that has not run since it was created. -/
structure StartsFresh (h : Hart Slot) (entry stackTop : ℕ) : Prop where
  pc : h.pc = entry
  sp : h.regs .sp = stackTop
  regs : ∀ r, r ≠ .sp → r.reserved = false → h.regs r = 0
  userMode : h.userMode = true

variable {q w : Sys} {next : TaskIndex} {flow : Flow} {r : Option ℕ}

/-- The context of another task survives until it is loaded. -/
theorem switched_context (he : Entered P s e q.hart) (hs : Switched P q s.currentTask next w flow)
    (hne : next ≠ s.currentTask) (offset : ℕ) :
    w.hart.mem (.context next offset) = s.hart.mem (.context next offset) := by
  rw [switched_hart hs, (switchContext_saved P _ _ _).contexts next offset hne]
  exact he.contexts next offset hne

theorem switch_startsFresh (he : Entered P s e q.hart)
    (hs : Switched P q s.currentTask next w flow) (hr : r = none ↔ flow = .trampoline)
    (hne : next ≠ s.currentTask) {t : Task} (hf : FreshContext P s.hart next t) :
    StartsFresh (leaveHandler P (w, r)).hart t.entry t.stackTop := by
  have hctx : ∀ offset, w.hart.mem (.context next offset) =
      freshContext P t.entry t.stackTop offset :=
    fun offset => (switched_context he hs hne offset).trans (hf offset)
  obtain rfl : r = none := hr.mpr ((switched_flow hs).mpr (hctx 0))
  have hl := switchContext_loaded P q.hart s.currentTask next
  rw [← switched_hart hs] at hl
  have ht := taskTrampoline_trampolined P w.hart
  refine ⟨?_, ?_, fun r hsp hres => ?_, ?_⟩
  · exact (ht.pc.trans hl.mepc).trans (hctx 112)
  · exact (ht.sp.trans hl.userSp).trans (hctx 8)
  · rcases reg_cases r with rfl | hc | hc | hc
    · exact absurd rfl hsp
    · exact absurd (hres.symm.trans hc) (by decide)
    · exact ht.callerSaved r hc
    · refine ((ht.calleeSaved r hc).trans (hl.calleeSaved r hc)).trans ((hctx _).trans ?_)
      cases r <;> rfl
  · rw [show (leaveHandler P (w, none)).hart.userMode = _ from ht.userMode, hl.mstatus, hctx 120]
    simp [freshContext, mstatusUser, mppOf]

theorem switch_reserved (he : Entered P s e q.hart) (hs : Switched P q s.currentTask next w flow)
    {reg : Reg} (hreg : reg.reserved = true) :
    (leaveHandler P (w, r)).hart.regs reg = e.regs reg := by
  have hl := switchContext_loaded P q.hart s.currentTask next
  rw [← switched_hart hs] at hl
  exact leaveHandler_reserved ((hl.reserved reg hreg).trans (he.reserved reg hreg)) hreg

theorem frameOffset_ne (r : Reg) : frameOffset r ≠ 256 ∧ frameOffset r ≠ 136 := by
  cases r <;> decide

/-- A switch of an interrupted task to itself loads what it has just stored. After an `ecall` it
would load the address of the `ecall` instead. -/
theorem Entered.switchedToItself {h : Hart Slot} (he : Entered P s e h)
    (hint : isEcall e.mcause = false) :
    Entered P s e (switchContext P h s.currentTask s.currentTask) := by
  have hs := switchContext_saved P h s.currentTask s.currentTask
  have hl := switchContext_loaded P h s.currentTask s.currentTask
  refine ⟨fun r hr => ?_, ?_, ?_, ?_, fun r hr => ?_, fun r hr hns => ?_, fun r hr => ?_, ?_, ?_,
    fun i offset hi => ?_⟩
  · rw [hl.frame _ (frameOffset_ne r).1 (frameOffset_ne r).2]
    exact he.frame r hr
  · rw [hl.userSp, hs.sp]
    exact he.userSp
  · rw [hl.frame 128 (by decide) (by decide)]
    exact he.cause
  · rw [hl.framePc, hs.mepc, he.mepc]
    simp [resumePc, hint]
  · rw [hl.kernelStack]
    exact he.kernelStack r hr
  · rw [hl.calleeSaved r hr, hs.calleeSaved r hr]
    exact he.calleeSaved r hr hns
  · rw [hl.reserved r hr]
    exact he.reserved r hr
  · rw [hl.mepc, hs.mepc]
    exact he.mepc
  · rw [hl.mstatus, hs.mstatus]
    exact he.mstatus
  · rw [hs.contexts i offset hi]
    exact he.contexts i offset hi

theorem ownContext_interrupt (hint : isEcall e.mcause = false) (x y : ℕ) :
    ownContext e x = ownContext e y := by
  simp [ownContext, hint]

theorem switch_toItself (he : Entered P s e q.hart)
    (hs : Switched P q s.currentTask s.currentTask w flow) (hr : r = none ↔ flow = .trampoline)
    (hint : isEcall e.mcause = false) (result : ℕ) :
    Resumes (leaveHandler P (w, r)).hart (ownContext e result) := by
  have hent := he.switchedToItself hint
  rw [← switched_hart hs] at hent
  cases r with
  | none =>
    have hpc := (switched_flow hs).mp (hr.mp rfl)
    rw [switched_hart hs, (switchContext_saved P q.hart s.currentTask s.currentTask).ra] at hpc
    exact absurd hpc P.switchReturn_ne
  | some x =>
    rw [ownContext_interrupt hint result x]
    exact hent.resumes x

/-- A task that was switched away from comes back with the stack pointer, the program counter and
the unspilled callee-saved registers of its context, and with the spilled ones of the task that
the trap interrupted. -/
structure Reloaded (P : Platform) (s : Sys) (e : TrapEvent) (task : TaskIndex) (h : Hart Slot) :
    Prop where
  pc : h.pc = s.hart.mem (.context task 112)
  sp : h.regs .sp = s.hart.mem (.context task 8)
  calleeSaved : ∀ r, r.calleeSaved = true → h.regs r =
    if P.spilled r then e.regs r else s.hart.mem (.context task (contextOffset r))

theorem switch_reloads (he : Entered P s e q.hart) (hs : Switched P q s.currentTask next w flow)
    (hr : r = none ↔ flow = .trampoline) (hne : next ≠ s.currentTask)
    (hra : s.hart.mem (.context next 0) = P.switchReturn) :
    Reloaded P s e next (leaveHandler P (w, r)).hart := by
  have hctx := switched_context he hs hne
  have hl := switchContext_loaded P q.hart s.currentTask next
  rw [← switched_hart hs] at hl
  cases r with
  | none =>
    have hpc := (switched_flow hs).mp (hr.mp rfl)
    rw [hctx 0, hra] at hpc
    exact absurd hpc P.switchReturn_ne
  | some x =>
    have hx := trapExit_left (handlerEpilogue P w.hart) x
    refine ⟨(hx.pc.trans hl.framePc).trans (hctx 112), (hx.sp.trans hl.userSp).trans (hctx 8),
      fun r hc => (hx.calleeSaved r hc).trans ?_⟩
    rw [handlerEpilogue]
    dsimp only
    split
    · rename_i hspill
      rw [hl.kernelStack]
      exact he.kernelStack r hspill
    · rw [hl.calleeSaved r hc]
      exact hctx _

/-- What `switch_context` leaves in the context of the task it takes the CPU from. -/
structure Parked (P : Platform) (e : TrapEvent) (task : TaskIndex) (h : Hart Slot) : Prop where
  ra : h.mem (.context task 0) = P.switchReturn
  sp : h.mem (.context task 8) = e.regs .sp
  calleeSaved : ∀ r, r.calleeSaved = true → P.spilled r = false →
    h.mem (.context task (contextOffset r)) = e.regs r
  mepc : h.mem (.context task 112) = e.pc

theorem switch_parks (he : Entered P s e q.hart) (hs : Switched P q s.currentTask next w flow) :
    Parked P e s.currentTask (leaveHandler P (w, r)).hart := by
  have hsave := switchContext_saved P q.hart s.currentTask next
  rw [← switched_hart hs] at hsave
  refine ⟨?_, ?_, fun r hc hns => ?_, ?_⟩
  · rw [leaveHandler_contexts, hsave.ra]
  · rw [leaveHandler_contexts, hsave.sp]
    exact he.userSp
  · rw [leaveHandler_contexts, hsave.calleeSaved r hc]
    exact he.calleeSaved r hc hns
  · rw [leaveHandler_contexts, hsave.mepc]
    exact he.mepc

end

end KernelResume
