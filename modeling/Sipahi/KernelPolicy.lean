import Sipahi.KernelTypes

/-! # The failure policy: six modes, decided from event, restart count and DAL -/
namespace KernelPolicy

open KernelTypes

inductive FailureMode where
  | restart | isolate | degrade | failover | alert | shutdown
  deriving DecidableEq, Repr

inductive PolicyEvent where
  | budgetExhausted | stackOverflow | taskFault | capViolation | iopmpViolation
  | pmpIntegrityFail | watchdogTimeout | deadlineMiss | multiModuleCrash
  deriving DecidableEq, Repr

/-- The `repr(u8)` discriminant. -/
def PolicyEvent.code : PolicyEvent → ℕ
  | .budgetExhausted => 0
  | .stackOverflow => 1
  | .taskFault => 2
  | .capViolation => 3
  | .iopmpViolation => 4
  | .pmpIntegrityFail => 5
  | .watchdogTimeout => 6
  | .deadlineMiss => 7
  | .multiModuleCrash => 8

def maxRestartBudget : ℕ := 1
def maxRestartFault : ℕ := 3
def maxRestartWatchdog : ℕ := 1

def decideAction (event restartCount dal : ℕ) : FailureMode :=
  match event with
  | 0 => if restartCount < maxRestartBudget then .restart else .degrade
  | 1 => if restartCount < maxRestartFault then .restart else .isolate
  | 2 => if restartCount < maxRestartFault then .restart else .isolate
  | 3 => .isolate
  | 4 => .isolate
  | 5 => .shutdown
  | 6 => if restartCount < maxRestartWatchdog then .failover else .degrade
  | 7 =>
    match dal with
    | 0 => .failover
    | 1 => .alert
    | 2 => .alert
    | _ => .isolate
  | 8 => .shutdown
  | _ => .isolate

/-- `RESTART_COUNTS` of the named task, zero for a kernel pseudo-task. -/
def restartCountOf (counts : TaskIndex → ℕ) (taskId : ℕ) : ℕ :=
  if h : taskId < maxTasks then counts ⟨taskId, h⟩ else 0

/-- The two lockstep evaluations; a mismatch shuts the system down. -/
def lockstepAction (event : PolicyEvent) (count dal : ℕ) : FailureMode :=
  let action1 := decideAction event.code count dal
  let action2 := decideAction event.code count dal
  if action1 ≠ action2 then .shutdown else action1

/-- The decision together with the updated restart counters. -/
def applyPolicy (counts : TaskIndex → ℕ) (taskId : ℕ) (event : PolicyEvent) (dal : ℕ) :
    FailureMode × (TaskIndex → ℕ) :=
  let action := lockstepAction event (restartCountOf counts taskId) dal
  if h : action = .restart ∧ taskId < maxTasks then
    (action, Function.update counts ⟨taskId, h.2⟩ (saturatingAdd8 (counts ⟨taskId, h.2⟩) 1))
  else (action, counts)

@[simp] theorem lockstepAction_eq (event : PolicyEvent) (count dal : ℕ) :
    lockstepAction event count dal = decideAction event.code count dal := by
  simp [lockstepAction]

@[simp] theorem applyPolicy_fst (counts : TaskIndex → ℕ) (taskId : ℕ) (event : PolicyEvent)
    (dal : ℕ) : (applyPolicy counts taskId event dal).1 =
      decideAction event.code (restartCountOf counts taskId) dal := by
  simp only [applyPolicy, lockstepAction_eq]
  split <;> rfl

end KernelPolicy
