import Sipahi.KernelPolicy
import Sipahi.KernelCapability
import Sipahi.KernelIpcChannel
import Sipahi.KernelPmp
import Sipahi.RiscvHart

/-!
# The kernel's statics and the hart they live with

`Platform` holds what the linker, the compiler and the generated tables fix for one build.
-/
namespace KernelState

open KernelTypes KernelPolicy KernelBlackbox KernelCapability KernelIpcChannel KernelPmp RiscvHart

/-- `MSTATUS_MPP_U | MSTATUS_MPIE`. -/
def mstatusUser : ℕ := 0x80

def trapFrameSize : ℕ := 272

/-- Kernel memory that the trap path loads from and stores to: the single trap frame below
`__stack_top`, the part of the kernel stack where the compiled handler keeps the callee-saved
registers it uses, and the `TaskContext` blocks. Offsets are in bytes. -/
inductive Slot where
  | frame (offset : ℕ)
  | kernelStack (r : Reg)
  | context (task : TaskIndex) (offset : ℕ)
  deriving DecidableEq

/-- The slot at `-distance(__stack_top)`. -/
def fromTop (distance : ℕ) : Slot := .frame (trapFrameSize - distance)

/-- One build of the kernel. `switchReturn` is the return address of the call of
`switch_context`, and `spilled` the callee-saved registers that `trap_handler` and its callees
push before that call and reload after it. `TASK_STACKS` is an array of `AlignedStack`s, each 8 KiB
and aligned to its size. -/
structure Platform where
  stackTop : ℕ
  taskTrampoline : ℕ
  switchReturn : ℕ
  spilled : Reg → Bool
  taskStackBase : TaskIndex → ℕ
  taskStacksStart : ℕ
  taskStacksEnd : ℕ
  sections : SectionBounds
  kernelEnd : ℕ
  pmpProfiles : TaskIndex → PmpProfile
  localCapTable : CapTable
  keyedHash : List UInt8 → List UInt8 → List UInt8
  productionOtp : Bool
  stackTop_pos : 0 < stackTop
  trapFrame_fits : trapFrameSize ≤ stackTop
  stackTop_lt : stackTop < xlen
  switchReturn_ne : switchReturn ≠ taskTrampoline
  spilled_calleeSaved : ∀ r, spilled r = true → r.calleeSaved = true
  textStart_pos : 0 < sections.textStart
  taskStack_aligned : ∀ i, 2 ^ 13 ∣ taskStackBase i
  taskStack_below : ∀ i, taskStackBase i + 2 ^ 13 ≤ 2 ^ 56
  taskStack_array : ∀ i, taskStackBase i = taskStackBase 0 + i.val * taskStackSize

/-- `__text_start` and `_end`: the range whose addresses must not leak to U-mode. -/
def Platform.kernelStart (P : Platform) : ℕ := P.sections.textStart

def Platform.getPmpProfile (P : Platform) (taskId : ℕ) : Option PmpProfile :=
  if h : taskId < maxTasks then some (P.pmpProfiles ⟨taskId, h⟩) else none

/-- The ways a run ends: the hart parks and nothing executes in U-mode again. -/
inductive Halt where
  | haltSystem (reason : String)
  | shutdown
  | nestedFault
  | panic
  deriving DecidableEq, Repr

structure Sys where
  tasks : TaskIndex → Task
  taskCount : ℕ
  currentTask : TaskIndex
  degraded : Bool
  degradeLogged : Bool
  degradeTick : ℕ
  restartCounts : TaskIndex → ℕ
  capFailCount : TaskIndex → ℕ
  broker : Broker
  blackbox : Blackbox
  pmp : Pmp
  pool : ChannelPool
  tickCount : ℕ
  mtimecmp : ℕ
  userMem : ℕ → UInt8
  hart : Hart Slot

/-- The statics as the image holds them; registers, `mtimecmp` and RAM are arbitrary. -/
def Sys.cold (hart : Hart Slot) (mtimecmp : ℕ) (userMem : ℕ → UInt8) : Sys where
  tasks := fun _ => .empty
  taskCount := 0
  currentTask := ⟨0, by decide⟩
  degraded := false
  degradeLogged := false
  degradeTick := 0
  restartCounts := fun _ => 0
  capFailCount := fun _ => 0
  broker := .new
  blackbox := .init
  pmp := .reset
  pool := .empty
  tickCount := 0
  mtimecmp := mtimecmp
  userMem := userMem
  hart := hart

def Sys.setTask (s : Sys) (i : TaskIndex) (t : Task) : Sys :=
  { s with tasks := Function.update s.tasks i t }

def Sys.log (s : Sys) (event : BlackboxEvent) (taskId : ℕ) (data : List UInt8) : Sys :=
  { s with blackbox := s.blackbox.log event taskId data }

def Sys.current (s : Sys) : Task := s.tasks s.currentTask

/-- A slot that a create function has filled: slots skipped by `native_create_task` and the
slots above `TASK_COUNT` stay `Dead`, and nothing makes a filled one `Dead` again. -/
def Sys.Created (s : Sys) (i : TaskIndex) : Prop :=
  i.val < s.taskCount ∧ (s.tasks i).state ≠ .dead

instance (s : Sys) (i : TaskIndex) : Decidable (s.Created i) := inferInstanceAs (Decidable (_ ∧ _))

section Projections

variable (s : Sys) (i : TaskIndex) (t : Task) (event : BlackboxEvent) (taskId : ℕ)
  (data : List UInt8)

@[simp] theorem setTask_tasks : (s.setTask i t).tasks = Function.update s.tasks i t := rfl
@[simp] theorem setTask_currentTask : (s.setTask i t).currentTask = s.currentTask := rfl

@[simp] theorem log_tasks : (s.log event taskId data).tasks = s.tasks := rfl
@[simp] theorem log_currentTask : (s.log event taskId data).currentTask = s.currentTask := rfl
@[simp] theorem log_degraded : (s.log event taskId data).degraded = s.degraded := rfl

end Projections

end KernelState
