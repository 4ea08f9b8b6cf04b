import Sipahi.KernelSyscall
import Sipahi.GuardedExecution

/-!
# Traps, boot and the kernel as a machine

One step is one trap, from the instruction of the current task that raised it to the next
`mret`. What the task did since the last `mret` is part of the event.
-/
namespace KernelTrap

open KernelTypes KernelPolicy KernelCapability KernelIpcChannel KernelPmp KernelState
open KernelTrapFrame KernelScheduler KernelSyscall RiscvHart GuardedExecution

def interruptBit : ℕ := 2 ^ 63

/-- A trap out of U-mode: the register file, the program counter and the memory the task left
behind, the cause, and the clock read by the handler. `scratch` is what the compiled handler has
in the registers it clobbers when it calls `switch_context`. -/
structure TrapEvent where
  regs : Reg → ℕ
  pc : ℕ
  mcause : ℕ
  mtval : ℕ
  mtime : ℕ
  userMem : ℕ → UInt8
  scratch : Reg → ℕ

/-- What the hart does on its own: `MPP = U`, `MPIE = 1`, `MIE = 0`. -/
def takeTrap (s : Sys) (e : TrapEvent) : Sys :=
  { s with
    userMem := e.userMem
    hart :=
      { s.hart with
        regs := e.regs
        csrs := Function.update (Function.update (Function.update (Function.update s.hart.csrs
          .mepc e.pc) .mcause e.mcause) .mtval e.mtval) .mstatus mstatusUser
        userMode := false } }

/-- `CLINT_FREQ * TICK_PERIOD_US / 1_000_000`. -/
def ticksPerPeriod : ℕ := 100000

/-- The overrun flag and the next deadline. -/
def scheduleNextTick (mtimecmp now : ℕ) : Bool × ℕ :=
  if mtimecmp + ticksPerPeriod < now then (true, now + ticksPerPeriod)
  else (false, mtimecmp + ticksPerPeriod)

/-- The timer interrupt up to `schedule_timer_tick`. -/
def armNextTick (s : Sys) (mtime : ℕ) : Sys :=
  { s with
    tickCount := s.tickCount + 1
    mtimecmp := (scheduleNextTick s.mtimecmp mtime).2 }

/-- Overruns of the first ten ticks are forgiven. -/
def deadlineMissed (s : Sys) (mtime : ℕ) : Bool :=
  (scheduleNextTick s.mtimecmp mtime).1 && decide (10 < s.tickCount + 1)

/-- One of the sums on 64 bits overflows: `TICK_COUNT`, the next deadline, or the one behind an
overrun. -/
def clockOverflows (s : Sys) (mtime : ℕ) : Bool :=
  decide (2 ^ 64 ≤ s.tickCount + 1) || decide (2 ^ 64 ≤ s.mtimecmp + ticksPerPeriod) ||
    ((scheduleNextTick s.mtimecmp mtime).1 && decide (2 ^ 64 ≤ mtime + ticksPerPeriod))

def answerDeadline (P : Platform) (s : Sys) (mtime : ℕ) : Except Halt Sys :=
  let u := armNextTick s mtime
  if deadlineMissed s mtime then
    respond P (u.log .deadlineMiss u.currentTask.val []) u.currentTask u.currentTask.val
      .deadlineMiss u.current.dal
  else .ok u

/-- The kernel is built with overflow checks. -/
def deadlinePhase (P : Platform) (s : Sys) (mtime : ℕ) : Except Halt Sys :=
  if clockOverflows s mtime then .error .panic else answerDeadline P s mtime

theorem deadlinePhase_ok {P : Platform} {s u : Sys} {mtime : ℕ} :
    deadlinePhase P s mtime = .ok u ↔
      clockOverflows s mtime = false ∧ answerDeadline P s mtime = .ok u := by
  rw [deadlinePhase]
  cases clockOverflows s mtime <;> simp

def answerZeroUnlessStarted : Sys × Flow → Sys × Option ℕ
  | (s, .resume) => (s, some 0)
  | (s, .trampoline) => (s, none)

def timerInterrupt (P : Platform) (s : Sys) (mtime : ℕ) : Except Halt (Sys × Option ℕ) := do
  let u ← deadlinePhase P s mtime
  let r ← scheduleTimerTick P u
  .ok (answerZeroUnlessStarted r)

/-- Checked for an `ecall` out of U-mode only. -/
def verifyMppIsUserMode (s : Sys) (mcause : ℕ) : Except Halt Unit :=
  if mcause = 8 ∧ mppOf (s.hart.csrs .mstatus) ≠ 0 then
    .error (.haltSystem "[TRAP] PRIVILEGE ESCALATION DETECTED — SHUTDOWN")
  else .ok ()

def ecallTrap (P : Platform) (s : Sys) (mcause syscallId arg0 arg1 arg2 : ℕ) :
    Except Halt (Sys × Option ℕ) := do
  verifyMppIsUserMode s mcause
  dispatch P s syscallId arg0 arg1 arg2

/-- Illegal instruction, breakpoint and misaligned accesses. -/
def taskFaultTrap (P : Platform) (s : Sys) : Except Halt (Sys × Option ℕ) := do
  let u ← handleTaskFault P (s.log .policyIsolate systemTaskId [])
  .ok (u, some 0)

/-- A fault inside the task stacks is a stack overflow, any other a task fault. -/
def respondToAccessFault (P : Platform) (s : Sys) (faultAddr : ℕ) : Except Halt Sys :=
  if P.taskStacksStart ≤ faultAddr ∧ faultAddr < P.taskStacksEnd then
    respond P s s.currentTask s.currentTask.val .stackOverflow s.current.dal
  else handleTaskFault P s

def accessFaultTrap (P : Platform) (s : Sys) : Except Halt (Sys × Option ℕ) := do
  let u ← respondToAccessFault P (s.log .pmpFail s.currentTask.val []) (s.hart.csrs .mtval)
  .ok (u, some 0)

def exceptionTrap (P : Platform) (s : Sys) (mcause syscallId arg0 arg1 arg2 : ℕ) :
    Except Halt (Sys × Option ℕ) :=
  match mcause with
  | 8 | 11 => ecallTrap P s mcause syscallId arg0 arg1 arg2
  | 0 | 2 | 3 | 4 | 6 => taskFaultTrap P s
  | 5 | 7 => accessFaultTrap P s
  | 1 => .error (.haltSystem "[TRAP] FATAL: instruction access fault")
  | 9 | 10 => .error (.haltSystem "[TRAP] FATAL: S/H-mode ecall (impossible)")
  | 12 | 13 | 14 | 15 => .error (.haltSystem "[TRAP] FATAL: page fault (no paging)")
  | _ => .error (.haltSystem "[TRAP] FATAL: unknown exception")

/-- An interrupt other than the machine timer is ignored. -/
def trapHandler (P : Platform) (s : Sys) (mtime mcause syscallId arg0 arg1 arg2 : ℕ) :
    Except Halt (Sys × Option ℕ) :=
  if mcause &&& interruptBit ≠ 0 then
    if mcause % interruptBit = 7 then timerInterrupt P s mtime else .ok (s, some 0)
  else exceptionTrap P s mcause syscallId arg0 arg1 arg2

/-- The state in which the body of `trap_handler` runs. -/
def enterHandler (P : Platform) (s : Sys) (e : TrapEvent) : Except Halt (Sys × (Reg → ℕ)) := do
  let s := takeTrap s e
  let h ← trapEntry s.hart
  .ok ({ s with hart := handlerPrologue P e.scratch h }, h.regs)

def leaveHandler (P : Platform) : Sys × Option ℕ → Sys
  | (s, none) => { s with hart := taskTrampoline P s.hart }
  | (s, some result) => { s with hart := trapExit (handlerEpilogue P s.hart) result }

def trap (P : Platform) (s : Sys) (e : TrapEvent) : Except Halt Sys := do
  let (u, args) ← enterHandler P s e
  let r ← trapHandler P u e.mtime (args .a0) (args .a2) (args .a3) (args .a4) (args .a5)
  .ok (leaveHandler P r)

/-! ## Boot -/

/-- What `boot::init` and the boot-time tests call before the scheduler starts. -/
inductive BootCall where
  | createTask (cfg : TaskConfig)
  | nativeCreateTask (cfg : NativeTaskConfig)
  | assignChannel (channelId producer consumer : ℕ)
  | assignNativeChannel (channelId producer consumer : ℕ)
  | sealChannels
  | provisionKey (key : List UInt8)
  | validateFull (token : Token) (caller : ℕ)

/-- A refused channel assignment halts the boot. -/
def bootAssign (s : Sys) (channelId producer consumer : ℕ) (reason : String) : Except Halt Sys :=
  match s.pool.assignChannel channelId producer consumer with
  | some pool => .ok { s with pool := pool }
  | none => .error (.haltSystem reason)

/-- A refused task does not halt the boot. The two kinds of channels are the legacy pair and the
entries of `BOOT_CHANNELS`. -/
def bootCall (P : Platform) (s : Sys) : BootCall → Except Halt Sys
  | .createTask cfg => .ok (createTask P s cfg).1
  | .nativeCreateTask cfg => do
    let (u, _) ← nativeCreateTask P s cfg
    .ok u
  | .assignChannel channelId producer consumer =>
    bootAssign s channelId producer consumer "[BOOT] FATAL: IPC channel assignment failed — HALT"
  | .assignNativeChannel channelId producer consumer =>
    bootAssign s channelId producer consumer
      "[BOOT] FATAL: SAFE-2 native channel assignment failed — HALT"
  | .sealChannels => .ok { s with pool := s.pool.sealChannels }
  | .provisionKey key => .ok { s with broker := s.broker.provisionKey P.productionOtp key }
  | .validateFull token caller =>
    .ok { s with
      broker := (s.broker.validateFull P.keyedHash s.blackbox.getTick token caller).2 }

def bootSequence (P : Platform) : Machine Sys BootCall Halt := ⟨fun _ => True, bootCall P⟩

def powerOn (P : Platform) (hart : Hart Slot) (mtimecmp : ℕ) (userMem : ℕ → UInt8) : Sys :=
  let s := Sys.cold hart mtimecmp userMem
  { s with pmp := s.pmp.initPmp P.sections }

/-- `boot::init`, `clint::init_timer` and `start_first_task`. -/
def boot (P : Platform) (hart : Hart Slot) (mtimecmp : ℕ) (userMem : ℕ → UInt8)
    (calls : List BootCall) : Except Halt Sys := do
  let s ← run (bootSequence P) (powerOn P hart mtimecmp userMem) calls
  startFirstTask P s

/-- The kernel from the first `mret` on. -/
def kernel (P : Platform) : Machine Sys TrapEvent Halt where
  Initial := fun s => ∃ hart mtimecmp userMem calls, boot P hart mtimecmp userMem calls = .ok s
  step := trap P

end KernelTrap
