import Sipahi.KernelState

/-!
# `trap.S` and `context.S`

Loads and stores name the slot they address: `sp` points to the trap frame throughout, and
`__stack_top` relative accesses go through `fromTop`. The compiled handler between `trap_entry`
and `switch_context` is described by the registers it saves and the values it leaves behind.
-/
namespace KernelTrapFrame

open KernelTypes KernelState RiscvHart

/-- `TaskContext` of a task that has not run since it was created or restarted. -/
def freshContext (P : Platform) (entry stackTop : ℕ) : ℕ → ℕ
  | 0 => P.taskTrampoline
  | 8 => stackTop
  | 112 => entry
  | 120 => mstatusUser
  | _ => 0

def writeContext (h : Hart Slot) (task : TaskIndex) (context : ℕ → ℕ) : Hart Slot :=
  { h with
    mem := fun
      | .context j offset => if j = task then context offset else h.mem (.context j offset)
      | slot => h.mem slot }

def switchSave (P : Platform) (old : TaskIndex) : List (Instr Slot) :=
  [.sd .ra (.context old 0),
   .li .t0 P.stackTop,
   .ld .t1 (fromTop 16),
   .sd .t1 (.context old 8),
   .sd .s0 (.context old 16),
   .sd .s1 (.context old 24),
   .sd .s2 (.context old 32),
   .sd .s3 (.context old 40),
   .sd .s4 (.context old 48),
   .sd .s5 (.context old 56),
   .sd .s6 (.context old 64),
   .sd .s7 (.context old 72),
   .sd .s8 (.context old 80),
   .sd .s9 (.context old 88),
   .sd .s10 (.context old 96),
   .sd .s11 (.context old 104),
   .csrr .t0 .mepc,
   .sd .t0 (.context old 112),
   .csrr .t0 .mstatus,
   .sd .t0 (.context old 120)]

def switchLoad (P : Platform) (new : TaskIndex) : List (Instr Slot) :=
  [.ld .ra (.context new 0),
   .ld .t1 (.context new 8),
   .li .t0 P.stackTop,
   .sd .t1 (fromTop 16),
   .ld .s0 (.context new 16),
   .ld .s1 (.context new 24),
   .ld .s2 (.context new 32),
   .ld .s3 (.context new 40),
   .ld .s4 (.context new 48),
   .ld .s5 (.context new 56),
   .ld .s6 (.context new 64),
   .ld .s7 (.context new 72),
   .ld .s8 (.context new 80),
   .ld .s9 (.context new 88),
   .ld .s10 (.context new 96),
   .ld .s11 (.context new 104),
   .ld .t0 (.context new 112),
   .csrw .mepc .t0,
   .li .t1 P.stackTop,
   .sd .t0 (fromTop 136),
   .ld .t0 (.context new 120),
   .csrw .mstatus .t0]

/-- Called with `ra` at the instruction behind the call; `ret` continues at the `ra` loaded. -/
def switchContext (P : Platform) (h : Hart Slot) (old new : TaskIndex) : Hart Slot :=
  let h := execAll (h.setReg .ra P.switchReturn) (switchSave P old ++ switchLoad P new)
  { h with pc := h.regs .ra }

/-- The caller-saved registers in the order in which `task_trampoline` and `start_first_task`
clear them. -/
def scrub : List (Instr Slot) :=
  [.li .ra 0, .li .a0 0, .li .a1 0, .li .a2 0, .li .a3 0, .li .a4 0, .li .a5 0, .li .a6 0,
   .li .a7 0, .li .t2 0, .li .t3 0, .li .t4 0, .li .t5 0, .li .t6 0, .li .t0 0, .li .t1 0]

def taskTrampoline (P : Platform) (h : Hart Slot) : Hart Slot :=
  (execAll h
    ([.li .t0 P.stackTop,
      .ld .t1 (fromTop 16),
      .csrw .mscratch .t0,
      .mv .sp .t1] ++ scrub)).mret

def isEcall (mcause : ℕ) : Bool := mcause == 8 || mcause == 11

def trapSave : List (Instr Slot) :=
  [.addi .sp .sp (-272),
   .sd .t0 (.frame 8),
   .csrr .t0 .mscratch,
   .sd .t0 (.frame 256),
   .csrwZero .mscratch,
   .sd .ra (.frame 0),
   .sd .t1 (.frame 16),
   .sd .t2 (.frame 24),
   .sd .a0 (.frame 32),
   .sd .a1 (.frame 40),
   .sd .a2 (.frame 48),
   .sd .a3 (.frame 56),
   .sd .a4 (.frame 64),
   .sd .a5 (.frame 72),
   .sd .a6 (.frame 80),
   .sd .a7 (.frame 88),
   .sd .t3 (.frame 96),
   .sd .t4 (.frame 104),
   .sd .t5 (.frame 112),
   .sd .t6 (.frame 120),
   .csrr .t0 .mcause,
   .csrr .t1 .mepc,
   .sd .t0 (.frame 128),
   .sd .t1 (.frame 136)]

def ecallAdvance : List (Instr Slot) :=
  [.addi .t1 .t1 4,
   .sd .t1 (.frame 136)]

def handlerArgs : List (Instr Slot) :=
  [.mv .a0 .t0,
   .mv .a1 .t1,
   .ld .a2 (.frame 88),
   .ld .a3 (.frame 32),
   .ld .a4 (.frame 40),
   .ld .a5 (.frame 48),
   .ld .a6 (.frame 56)]

/-- A zero `mscratch` means that the trap came from the handler itself. The `li t2` operands of
the two comparisons are left out: `t2` is saved before and restored after them. -/
def trapEntry (h : Hart Slot) : Except Halt (Hart Slot) :=
  let h := execAll h [.csrrw .sp .mscratch .sp]
  if h.regs .sp = 0 then .error .nestedFault
  else
    let h := execAll h trapSave
    let h := if isEcall (h.regs .t0) then execAll h ecallAdvance else h
    .ok (execAll h handlerArgs)

/-- The handler pushes the callee-saved registers it needs; what it then leaves in these and in
the caller-saved registers is `scratch`. Nothing on the way into the kernel and out of it writes
`gp` or `tp`. -/
def handlerPrologue (P : Platform) (scratch : Reg → ℕ) (h : Hart Slot) : Hart Slot :=
  { h with
    mem := fun
      | .kernelStack r => if P.spilled r then h.regs r else h.mem (.kernelStack r)
      | slot => h.mem slot
    regs := fun r =>
      if r = .sp ∨ r.reserved = true ∨ (r.calleeSaved = true ∧ P.spilled r = false) then h.regs r
      else scratch r }

/-- The reloads run on the one kernel stack, whichever task is current by then. -/
def handlerEpilogue (P : Platform) (h : Hart Slot) : Hart Slot :=
  { h with regs := fun r => if P.spilled r then h.mem (.kernelStack r) else h.regs r }

def trapRestore : List (Instr Slot) :=
  [.ld .t0 (.frame 136),
   .csrw .mepc .t0,
   .ld .ra (.frame 0),
   .ld .t1 (.frame 16),
   .ld .t2 (.frame 24),
   .ld .a0 (.frame 32),
   .ld .a1 (.frame 40),
   .ld .a2 (.frame 48),
   .ld .a3 (.frame 56),
   .ld .a4 (.frame 64),
   .ld .a5 (.frame 72),
   .ld .a6 (.frame 80),
   .ld .a7 (.frame 88),
   .ld .t3 (.frame 96),
   .ld .t4 (.frame 104),
   .ld .t5 (.frame 112),
   .ld .t6 (.frame 120),
   .ld .t0 (.frame 256),
   .csrw .mscratch .t0,
   .ld .t0 (.frame 8),
   .addi .sp .sp 272,
   .csrrw .sp .mscratch .sp]

/-- `result` is the value that `trap_handler` returned in `a0`. -/
def trapExit (h : Hart Slot) (result : ℕ) : Hart Slot :=
  let h := execAll (h.setReg .a0 result) [.ld .t0 (.frame 128)]
  let h := if isEcall (h.regs .t0) then execAll h [.sd .a0 (.frame 32)] else h
  (execAll h trapRestore).mret

/-! ## What each block of code does -/

/-- `ra`, `t0-t6` and `a0-a7`. -/
def callerSaved (r : Reg) : Bool := r != .sp && !r.reserved && !r.calleeSaved

/-- The place of a caller-saved register in the trap frame. -/
def frameOffset : Reg → ℕ
  | .ra => 0
  | .t0 => 8
  | .t1 => 16
  | .t2 => 24
  | .a0 => 32
  | .a1 => 40
  | .a2 => 48
  | .a3 => 56
  | .a4 => 64
  | .a5 => 72
  | .a6 => 80
  | .a7 => 88
  | .t3 => 96
  | .t4 => 104
  | .t5 => 112
  | .t6 => 120
  | _ => 264

/-- The place of a callee-saved register in a `TaskContext`. -/
def contextOffset : Reg → ℕ
  | .s0 => 16
  | .s1 => 24
  | .s2 => 32
  | .s3 => 40
  | .s4 => 48
  | .s5 => 56
  | .s6 => 64
  | .s7 => 72
  | .s8 => 80
  | .s9 => 88
  | .s10 => 96
  | .s11 => 104
  | _ => 128

/-- Where a trapped task continues: behind an `ecall`, at the instruction itself otherwise. -/
def resumePc (mcause pc : ℕ) : ℕ := if isEcall mcause then addImm pc 4 else pc

structure TrapEntered (h k : Hart Slot) : Prop where
  arg0 : k.regs .a0 = h.csrs .mcause
  arg2 : k.regs .a2 = h.regs .a7
  arg3 : k.regs .a3 = h.regs .a0
  arg4 : k.regs .a4 = h.regs .a1
  arg5 : k.regs .a5 = h.regs .a2
  calleeSaved : ∀ r, r.calleeSaved = true → k.regs r = h.regs r
  reserved : ∀ r, r.reserved = true → k.regs r = h.regs r
  sp : k.regs .sp = addImm (h.csrs .mscratch) (-272)
  frame : ∀ r, callerSaved r = true → k.mem (.frame (frameOffset r)) = h.regs r
  userSp : k.mem (.frame 256) = h.regs .sp
  cause : k.mem (.frame 128) = h.csrs .mcause
  pc : k.mem (.frame 136) = resumePc (h.csrs .mcause) (h.csrs .mepc)
  csrs : ∀ c, c ≠ .mscratch → k.csrs c = h.csrs c
  contexts : ∀ i offset, k.mem (.context i offset) = h.mem (.context i offset)

theorem trapEntry_entered {h k : Hart Slot} (he : trapEntry h = .ok k) : TrapEntered h k := by
  unfold trapEntry at he
  dsimp only at he
  split at he
  · cases he
  · have hcause : (execAll (execAll h [.csrrw .sp .mscratch .sp]) trapSave).regs .t0 =
        h.csrs .mcause := rfl
    rw [hcause] at he
    split at he
    · rename_i hecall
      cases he
      refine ⟨rfl, rfl, rfl, rfl, rfl, fun r hr => ?_, fun r hr => ?_, rfl, fun r hr => ?_, rfl, rfl,
        ?_, fun c hc => ?_, fun _ _ => rfl⟩
      · cases r <;> first | rfl | cases hr
      · cases r <;> first | rfl | cases hr
      · cases r <;> first | rfl | cases hr
      · rw [resumePc, if_pos hecall]
        rfl
      · cases c <;> first | rfl | exact absurd rfl hc
    · rename_i hecall
      cases he
      refine ⟨rfl, rfl, rfl, rfl, rfl, fun r hr => ?_, fun r hr => ?_, rfl, fun r hr => ?_, rfl, rfl,
        ?_, fun c hc => ?_, fun _ _ => rfl⟩
      · cases r <;> first | rfl | cases hr
      · cases r <;> first | rfl | cases hr
      · cases r <;> first | rfl | cases hr
      · rw [resumePc, if_neg hecall]
        rfl
      · cases c <;> first | rfl | exact absurd rfl hc

/-- The frame decides everything but the callee-saved registers. -/
structure TrapLeft (h k : Hart Slot) (result : ℕ) : Prop where
  callerSaved : ∀ r, callerSaved r = true → k.regs r =
    if r = .a0 ∧ isEcall (h.mem (.frame 128)) = true then result else h.mem (.frame (frameOffset r))
  calleeSaved : ∀ r, r.calleeSaved = true → k.regs r = h.regs r
  reserved : ∀ r, r.reserved = true → k.regs r = h.regs r
  sp : k.regs .sp = h.mem (.frame 256)
  pc : k.pc = h.mem (.frame 136)
  mscratch : k.csrs .mscratch = addImm (h.regs .sp) 272
  userMode : k.userMode = (mppOf (h.csrs .mstatus) == 0)
  contexts : ∀ i offset, k.mem (.context i offset) = h.mem (.context i offset)

theorem trapExit_left (h : Hart Slot) (result : ℕ) : TrapLeft h (trapExit h result) result := by
  have hcause : (execAll (h.setReg .a0 result) [.ld .t0 (.frame 128)]).regs .t0 =
      h.mem (.frame 128) := rfl
  unfold trapExit
  dsimp only
  rw [hcause]
  split
  · rename_i hecall
    refine ⟨fun r hr => ?_, fun r hr => ?_, fun r hr => ?_, rfl, rfl, rfl, rfl, fun _ _ => rfl⟩
    · rw [hecall]
      cases r <;> first | rfl | cases hr
    · cases r <;> first | rfl | cases hr
    · cases r <;> first | rfl | cases hr
  · rename_i hecall
    refine ⟨fun r hr => ?_, fun r hr => ?_, fun r hr => ?_, rfl, rfl, rfl, rfl, fun _ _ => rfl⟩
    · rw [if_neg fun hc => hecall hc.2]
      cases r <;> first | rfl | cases hr
    · cases r <;> first | rfl | cases hr
    · cases r <;> first | rfl | cases hr

structure Trampolined (P : Platform) (h k : Hart Slot) : Prop where
  callerSaved : ∀ r, callerSaved r = true → k.regs r = 0
  calleeSaved : ∀ r, r.calleeSaved = true → k.regs r = h.regs r
  reserved : ∀ r, r.reserved = true → k.regs r = h.regs r
  sp : k.regs .sp = h.mem (.frame 256)
  pc : k.pc = h.csrs .mepc
  mscratch : k.csrs .mscratch = P.stackTop
  userMode : k.userMode = (mppOf (h.csrs .mstatus) == 0)
  mem : k.mem = h.mem

theorem taskTrampoline_trampolined (P : Platform) (h : Hart Slot) :
    Trampolined P h (taskTrampoline P h) := by
  refine ⟨fun r hr => ?_, fun r hr => ?_, fun r hr => ?_, rfl, rfl, rfl, rfl, rfl⟩
  · cases r <;> first | rfl | cases hr
  · cases r <;> first | rfl | cases hr
  · cases r <;> first | rfl | cases hr

/-- The context that `switch_context` stores: the callee-saved registers as they are, the user
stack pointer from the frame, and `mepc` and `mstatus` from the CSRs. -/
structure ContextSaved (P : Platform) (h k : Hart Slot) (old : TaskIndex) : Prop where
  ra : k.mem (.context old 0) = P.switchReturn
  sp : k.mem (.context old 8) = h.mem (.frame 256)
  calleeSaved : ∀ r, r.calleeSaved = true → k.mem (.context old (contextOffset r)) = h.regs r
  mepc : k.mem (.context old 112) = h.csrs .mepc
  mstatus : k.mem (.context old 120) = h.csrs .mstatus
  contexts : ∀ j offset, j ≠ old → k.mem (.context j offset) = h.mem (.context j offset)

/-- The registers after the switch, in terms of the contexts after it. The rest of the frame still
holds the registers of the task that trapped, and so do `gp` and `tp`. -/
structure ContextLoaded (h k : Hart Slot) (new : TaskIndex) : Prop where
  pc : k.pc = k.mem (.context new 0)
  userSp : k.mem (.frame 256) = k.mem (.context new 8)
  calleeSaved : ∀ r, r.calleeSaved = true → k.regs r = k.mem (.context new (contextOffset r))
  mepc : k.csrs .mepc = k.mem (.context new 112)
  framePc : k.mem (.frame 136) = k.mem (.context new 112)
  mstatus : k.csrs .mstatus = k.mem (.context new 120)
  sp : k.regs .sp = h.regs .sp
  reserved : ∀ r, r.reserved = true → k.regs r = h.regs r
  frame : ∀ offset, offset ≠ 256 → offset ≠ 136 → k.mem (.frame offset) = h.mem (.frame offset)
  kernelStack : ∀ r, k.mem (.kernelStack r) = h.mem (.kernelStack r)

theorem switchSave_saved (P : Platform) (h : Hart Slot) (old : TaskIndex) :
    ContextSaved P h (execAll (h.setReg .ra P.switchReturn) (switchSave P old)) old := by
  have htop : fromTop 16 = .frame 256 := rfl
  refine ⟨?_, ?_, fun r hr => ?_, ?_, ?_, fun j offset hj => ?_⟩
  · simp [execAll, switchSave, exec, Hart.store, Hart.setReg]
  · simp [execAll, switchSave, exec, Hart.store, Hart.setReg, htop]
  · revert hr
    cases r <;> simp [execAll, switchSave, exec, Hart.store, Hart.setReg, contextOffset,
      Reg.calleeSaved]
  · simp [execAll, switchSave, exec, Hart.store, Hart.setReg]
  · simp [execAll, switchSave, exec, Hart.store, Hart.setReg]
  · simp [execAll, switchSave, exec, Hart.store, Hart.setReg, hj]

theorem switchContext_eq (P : Platform) (h : Hart Slot) (old new : TaskIndex) :
    switchContext P h old new =
      let k := execAll (execAll (h.setReg .ra P.switchReturn) (switchSave P old)) (switchLoad P new)
      { k with pc := k.regs .ra } := by
  unfold switchContext
  rw [execAll_append]

theorem switchContext_saved (P : Platform) (h : Hart Slot) (old new : TaskIndex) :
    ContextSaved P h (switchContext P h old new) old := by
  rw [switchContext_eq]
  have hs := switchSave_saved P h old
  exact ⟨hs.ra, hs.sp, fun r hr => hs.calleeSaved r hr, hs.mepc, hs.mstatus,
    fun j offset hj => hs.contexts j offset hj⟩

theorem switchContext_loaded (P : Platform) (h : Hart Slot) (old new : TaskIndex) :
    ContextLoaded h (switchContext P h old new) new := by
  rw [switchContext_eq]
  refine ⟨rfl, rfl, fun r hr => ?_, rfl, rfl, rfl, rfl, fun r hr => ?_, fun offset h1 h2 => ?_,
    fun _ => rfl⟩
  · cases r <;> first | rfl | cases hr
  · cases r <;> first | rfl | cases hr
  · have htop : fromTop 16 = .frame 256 := rfl
    have hpc : fromTop 136 = .frame 136 := rfl
    simp [execAll, switchSave, switchLoad, exec, Hart.store, Hart.setReg, Hart.setCsr, htop, hpc,
      h1, h2]

end KernelTrapFrame
