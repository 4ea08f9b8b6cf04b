import Sipahi.KernelTrap

/-!
# A reference build and runs on it

The generated tables are those under version control; the addresses follow the linker script.
-/
namespace KernelReference

open KernelTypes KernelCapability KernelPmp KernelState KernelScheduler KernelSyscall KernelTrap
open RiscvHart GuardedExecution

def referenceSections : SectionBounds where
  textStart := 0x80000000
  textEnd := 0x80008000
  rodataStart := 0x80008000
  rodataEnd := 0x8000A000
  dataStart := 0x8000A000
  pmpDataEnd := 0x80014000
  uartMapped := false

def referencePlatform : Platform where
  stackTop := 0x80014000
  taskTrampoline := 0x80000480
  switchReturn := 0x80002A34
  spilled := fun r => r == .s0 || r == .s1 || r == .s2 || r == .s3
  taskStackBase := fun i => 0x80014000 + i.val * taskStackSize
  taskStacksStart := 0x80014000
  taskStacksEnd := 0x80024000
  sections := referenceSections
  kernelEnd := 0x80024000
  pmpProfiles := generatedPmpProfiles
  localCapTable := generatedCapTable
  keyedHash := fun _ _ => List.replicate 16 0
  productionOtp := false
  stackTop_pos := by decide
  trapFrame_fits := by decide
  stackTop_lt := by decide
  switchReturn_ne := by decide
  spilled_calleeSaved := by intro r; cases r <;> decide
  textStart_pos := by decide
  taskStack_aligned := by decide
  taskStack_below := by decide
  taskStack_array := by decide

/-- The hart after the reset vector. -/
def resetHart : Hart Slot where
  regs := fun _ => 0
  csrs := fun _ => 0
  mem := fun _ => 0
  pc := 0x80000000
  userMode := false

/-- Boot with these calls, then take these traps. -/
def scenario (calls : List BootCall) (events : List TrapEvent) : Except Halt Sys := do
  let s ← boot referencePlatform resetHart 0 (fun _ => 0) calls
  run (kernel referencePlatform) s events

/-- The run does not halt and ends in a state that satisfies the test. -/
def endsWith {α : Type*} (x : Except Halt α) (test : α → Bool) : Bool :=
  match x with
  | .ok s => test s
  | .error _ => false

theorem endsWith_iff {α : Type*} {x : Except Halt α} {test : α → Bool} :
    endsWith x test = true ↔ ∃ s, x = .ok s ∧ test s = true := by
  cases x with
  | error e => simp [endsWith]
  | ok s => simp [endsWith]

theorem scenario_reachable {calls : List BootCall} {events : List TrapEvent} {s : Sys}
    (h : scenario calls events = .ok s) : Reachable (kernel referencePlatform) anyStep s := by
  obtain ⟨q, hq, hr⟩ := bind_eq_ok.mp h
  exact ⟨q, ⟨_, _, _, _, hq⟩, run_anyStep hr⟩

/-- A scenario whose every trap passes the check. -/
def checkedScenario (check : Sys → TrapEvent → Bool) (calls : List BootCall)
    (events : List TrapEvent) : Bool :=
  endsWith (scenario calls []) fun s => checkedRun (kernel referencePlatform) check s events

theorem checkedScenario_reachable {check : Sys → TrapEvent → Bool}
    {guard : Sys → TrapEvent → Prop} (hc : ∀ s e, check s e = true → guard s e)
    {calls : List BootCall} {events : List TrapEvent} {v : Sys}
    (hcheck : checkedScenario check calls events = true) (h : scenario calls events = .ok v) :
    Reachable (kernel referencePlatform) guard v := by
  obtain ⟨s, hs, hg⟩ := endsWith_iff.mp hcheck
  obtain ⟨q, hq, hqs⟩ := bind_eq_ok.mp hs
  cases hqs
  obtain ⟨q', hq', hr⟩ := bind_eq_ok.mp h
  obtain rfl : s = q' := Except.ok.inj (hq.symm.trans hq')
  exact ⟨s, ⟨_, _, _, _, hq⟩, run_execution (guardedRun_of_checkedRun hc hg) hr⟩

theorem booted_reachable {calls : List BootCall} {guard : Sys → TrapEvent → Prop} {s : Sys}
    (h : scenario calls [] = .ok s) : Reachable (kernel referencePlatform) guard s := by
  obtain ⟨q, hq, hr⟩ := bind_eq_ok.mp h
  cases hr
  exact .initial ⟨_, _, _, _, hq⟩

theorem scenario_append {calls : List BootCall} (first : List TrapEvent)
    {second : List TrapEvent} {v : Sys} (h : scenario calls (first ++ second) = .ok v) :
    ∃ s, scenario calls first = .ok s ∧ run (kernel referencePlatform) s second = .ok v := by
  obtain ⟨q, hq, hr⟩ := bind_eq_ok.mp h
  obtain ⟨s, hs, hv⟩ := run_append_ok.mp hr
  exact ⟨s, bind_eq_ok.mpr ⟨q, hq, hs⟩, hv⟩

/-- A legacy task with the given priority, DAL, budget and period. -/
def legacyTask (priority dal budgetCycles periodTicks : ℕ) : BootCall :=
  .createTask
    { entry := 0x80001000
      priority := priority
      dal := dal
      budgetCycles := budgetCycles
      periodTicks := periodTicks
      isSntmNative := false }

def nativeTask (taskId priority dal budgetCycles periodTicks : ℕ) : BootCall :=
  .nativeCreateTask
    { taskId := taskId
      priority := priority
      dal := dal
      budgetCycles := budgetCycles
      periodTicks := periodTicks }

/-- The four tasks and the channels of `boot::init`. -/
def bootInit : List BootCall :=
  [.provisionKey (List.replicate 32 0x5A),
   legacyTask 4 1 300000 10,
   legacyTask 8 2 200000 10,
   nativeTask 2 6 3 500000 50,
   nativeTask 3 7 3 500000 50,
   .assignChannel 0 0 1,
   .assignChannel 1 1 0,
   .assignNativeChannel 2 2 3,
   .sealChannels]

def trapAt (mcause pc : ℕ) (regs : Reg → ℕ) : TrapEvent where
  regs := regs
  pc := pc
  mcause := mcause
  mtval := 0
  mtime := 0
  userMem := fun _ => 0
  scratch := fun _ => 0

def timerAt (pc : ℕ) (regs : Reg → ℕ) : TrapEvent := trapAt (interruptBit + 7) pc regs

def ecallAt (pc : ℕ) (regs : Reg → ℕ) : TrapEvent := trapAt 8 pc regs

/-- The registers of a system call: `a7` and the first three arguments. -/
def syscallRegs (syscallId arg0 arg1 arg2 : ℕ) : Reg → ℕ
  | .a7 => syscallId
  | .a0 => arg0
  | .a1 => arg1
  | .a2 => arg2
  | _ => 0

/-- A message on channel 0, from the stack of the first task. -/
def sendFirst : TrapEvent := ecallAt 0x80001000 (syscallRegs sysIpcSendId 0 0x80014000 0)

end KernelReference
