import Mathlib.Algebra.Order.Ring.Nat
import Mathlib.Data.Fintype.Basic

/-!
# Constants and task control blocks

Unsigned machine integers are natural numbers; wrapping and saturating arithmetic is explicit.
The saved `TaskContext` of a task is not a field here: it is the context block of that task in
the hart's memory, because assembly and Rust code both write it.
-/
namespace KernelTypes

def maxTasks : ℕ := 8
def taskStackSize : ℕ := 8192
def cyclesPerTick : ℕ := 100000
def watchdogLimit : ℕ := 100
def watchdogWindowMin : ℕ := 3
def maxSendsPerTick : ℕ := 16
def maxIpcChannels : ℕ := 8
def maxResources : ℕ := 4
def systemTaskId : ℕ := 0xFF
def kernelBootId : ℕ := 0xFE
def channelUnassigned : ℕ := 0xFF
def degradeCooldownTicks : ℕ := 100

def u8Max : ℕ := 2 ^ 8 - 1
def u16Max : ℕ := 2 ^ 16 - 1
def u32Max : ℕ := 2 ^ 32 - 1
def usizeMax : ℕ := 2 ^ 64 - 1

def wrappingAdd32 (x y : ℕ) : ℕ := (x + y) % 2 ^ 32
def wrappingSub32 (x y : ℕ) : ℕ := (x + 2 ^ 32 - y) % 2 ^ 32
def saturatingAdd32 (x y : ℕ) : ℕ := min (x + y) u32Max
def saturatingAdd8 (x y : ℕ) : ℕ := min (x + y) u8Max

/-- `usize::checked_add`. -/
def checkedAdd (x y : ℕ) : Option ℕ := if x + y ≤ usizeMax then some (x + y) else none

/-- An index into the static task arrays. -/
abbrev TaskIndex := Fin maxTasks

instance : NeZero maxTasks := ⟨by decide⟩

inductive TaskState where
  | ready | running | suspended | dead | isolated
  deriving DecidableEq, Repr

structure TaskConfig where
  entry : ℕ
  priority : ℕ
  dal : ℕ
  budgetCycles : ℕ
  periodTicks : ℕ
  isSntmNative : Bool
  deriving DecidableEq

structure NativeTaskConfig where
  taskId : ℕ
  priority : ℕ
  dal : ℕ
  budgetCycles : ℕ
  periodTicks : ℕ
  deriving DecidableEq

structure Task where
  id : ℕ
  state : TaskState
  entry : ℕ
  stackTop : ℕ
  priority : ℕ
  dal : ℕ
  budgetCycles : ℕ
  remainingCycles : ℕ
  periodTicks : ℕ
  periodCounter : ℕ
  watchdogCounter : ℕ
  watchdogLimit : ℕ
  syscallCount : ℕ
  ipcSendCount : ℕ
  watchdogWindowMin : ℕ
  originalBudget : ℕ
  pmpAddrNapot : ℕ
  isSntmNative : Bool
  deriving DecidableEq

def Task.empty : Task where
  id := 0
  state := .dead
  entry := 0
  stackTop := 0
  priority := 15
  dal := 3
  budgetCycles := 0
  remainingCycles := 0
  periodTicks := 0
  periodCounter := 0
  watchdogCounter := 0
  watchdogLimit := 0
  syscallCount := 0
  ipcSendCount := 0
  watchdogWindowMin := 0
  originalBudget := 0
  pmpAddrNapot := 0
  isSntmNative := false

def isSelectableByScheduler (state : TaskState) : Bool :=
  state == .ready || state == .running

def isPeriodResetEligible (state : TaskState) : Bool := state == .suspended

/-- A zero limit switches the watchdog off. -/
def shouldWatchdogTimeout (limit counter : ℕ) : Bool := 0 < limit && limit ≤ counter

/-- Neither `Dead` nor `Isolated`: the states that degradation may suspend. -/
def Task.live (t : Task) : Prop := t.state ≠ .dead ∧ t.state ≠ .isolated

instance (t : Task) : Decidable t.live := inferInstanceAs (Decidable (_ ∧ _))

theorem isSelectable_iff {state : TaskState} :
    isSelectableByScheduler state = true ↔ state = .ready ∨ state = .running := by
  simp [isSelectableByScheduler]

@[simp] theorem isPeriodResetEligible_iff {state : TaskState} :
    isPeriodResetEligible state = true ↔ state = .suspended := by
  simp [isPeriodResetEligible]

end KernelTypes
