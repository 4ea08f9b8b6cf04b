import Sipahi.KernelTrapFrame
import Sipahi.FirstMinimum
import Sipahi.GuardedExecution

/-!
# The scheduler

Task creation, the policy actions, the phases of a timer tick, priority selection with the
context switch, and the start of the first task. Loops over the task table that treat each task
on its own are written pointwise; the watchdog loop, whose body runs policy actions, is a run
over the indices.
-/
namespace KernelScheduler

open KernelTypes KernelPolicy KernelBlackbox KernelState KernelTrapFrame KernelPmp RiscvHart
open FirstMinimum GuardedExecution

/-- `stack_top & !0xF`. -/
def alignDown16 (x : ℕ) : ℕ := x - x % 16

def createTask (P : Platform) (s : Sys) (cfg : TaskConfig) : Sys × Option TaskIndex :=
  if h : s.taskCount < maxTasks then
    if cfg.budgetCycles = 0 then (s, none)
    else
      let i : TaskIndex := ⟨s.taskCount, h⟩
      let stackBase := P.taskStackBase i
      let stackTop := alignDown16 (stackBase + taskStackSize)
      ({ s with
          tasks := Function.update s.tasks i
            { s.tasks i with
              id := s.taskCount
              state := .ready
              entry := cfg.entry
              stackTop := stackTop
              priority := cfg.priority
              dal := cfg.dal
              budgetCycles := cfg.budgetCycles
              remainingCycles := cfg.budgetCycles
              periodTicks := cfg.periodTicks
              periodCounter := 0
              watchdogCounter := 0
              watchdogLimit := KernelTypes.watchdogLimit
              watchdogWindowMin := KernelTypes.watchdogWindowMin
              originalBudget := cfg.budgetCycles
              pmpAddrNapot := (stackBase >>> 2) ||| pmpNapotMask8kb
              isSntmNative := cfg.isSntmNative }
          hart := writeContext s.hart i (freshContext P cfg.entry stackTop)
          taskCount := s.taskCount + 1 }, some i)
  else (s, none)

/-- Region 0 of the profile is the text, its last region the stack. The kernel is built with
overflow checks, so a stack that ends past the last address panics. -/
def nativeCreateTask (P : Platform) (s : Sys) (cfg : NativeTaskConfig) :
    Except Halt (Sys × Option TaskIndex) :=
  if h : cfg.taskId < maxTasks then
    if cfg.budgetCycles = 0 then .ok (s, none)
    else
      let i : TaskIndex := ⟨cfg.taskId, h⟩
      match (P.pmpProfiles i).activeRegions with
      | [] => .ok (s, none)
      | text :: rest =>
        if (s.tasks i).state = .ready ∨ (s.tasks i).state = .running then .ok (s, none)
        else
          let stack := (text :: rest).getLast (by simp)
          match checkedAdd stack.base stack.size with
          | none => .error .panic
          | some stackEnd =>
            let stackTop := alignDown16 stackEnd
            .ok ({ s with
                tasks := Function.update s.tasks i
                  { s.tasks i with
                    id := cfg.taskId
                    state := .ready
                    entry := text.base
                    stackTop := stackTop
                    priority := cfg.priority
                    dal := cfg.dal
                    budgetCycles := cfg.budgetCycles
                    remainingCycles := cfg.budgetCycles
                    periodTicks := cfg.periodTicks
                    periodCounter := 0
                    watchdogCounter := 0
                    watchdogLimit := KernelTypes.watchdogLimit
                    watchdogWindowMin := 0
                    originalBudget := cfg.budgetCycles
                    pmpAddrNapot := 0
                    isSntmNative := true }
                hart := writeContext s.hart i (freshContext P text.base stackTop)
                taskCount := if s.taskCount ≤ cfg.taskId then cfg.taskId + 1 else s.taskCount },
              some i)
  else .ok (s, none)

def isTaskSntmNative (s : Sys) (taskId : TaskIndex) : Bool :=
  let t := s.tasks taskId
  if t.state = .dead ∨ t.state = .isolated then false else t.isSntmNative

def taskStackRange (s : Sys) (taskId : TaskIndex) : Option (ℕ × ℕ) :=
  let t := s.tasks taskId
  if s.taskCount ≤ taskId.val then none
  else if t.state = .dead ∨ t.state = .isolated then none
  else if t.stackTop < taskStackSize then none
  else some (t.stackTop - taskStackSize, t.stackTop)

/-- `state as usize`. -/
def stateCode : TaskState → ℕ
  | .ready => 0
  | .running => 1
  | .suspended => 2
  | .dead => 3
  | .isolated => 4

def queryTaskInfo (s : Sys) (taskId : ℕ) : ℕ :=
  if h : taskId < s.taskCount ∧ taskId < maxTasks then
    let t := s.tasks ⟨taskId, h.2⟩
    (stateCode t.state <<< 8) ||| (t.priority <<< 4) ||| t.dal
  else 0

/-! ## Policy actions -/

def restartTask (P : Platform) (s : Sys) (id : TaskIndex) : Sys :=
  if id.val < s.taskCount then
    { s with
      hart := writeContext s.hart id (freshContext P (s.tasks id).entry (s.tasks id).stackTop) }
  else s

/-- A live DAL-C/D task is suspended with half its budget. -/
def degradeTask (t : Task) : Task :=
  if 2 ≤ t.dal ∧ t.live then { t with state := .suspended, budgetCycles := t.budgetCycles / 2 }
  else t

def degradeSystem (s : Sys) : Sys :=
  { s with
    degraded := true
    degradeTick := s.blackbox.currentTick
    tasks := fun i => if i.val < s.taskCount then degradeTask (s.tasks i) else s.tasks i }

def isolatedCount (s : Sys) : ℕ :=
  ((List.finRange maxTasks).filter fun i =>
    decide (i.val < s.taskCount) && (s.tasks i).state == .isolated).length

/-- `apply_action` on an index past the task table: a shutdown is the only action there. -/
def applySystemAction (s : Sys) (mode : FailureMode) : Except Halt Sys :=
  if mode = .shutdown then .error .shutdown else .ok s

def consultPolicy (s : Sys) (taskId : ℕ) (event : PolicyEvent) (dal : ℕ) : FailureMode × Sys :=
  let r := applyPolicy s.restartCounts taskId event dal
  (r.1, { s with restartCounts := r.2 })

def markIsolated (s : Sys) (id : TaskIndex) : Sys :=
  if id.val < s.taskCount then
    { s with
      tasks := Function.update s.tasks id { s.tasks id with state := .isolated }
      broker := s.broker.invalidateTaskCapabilities (s.tasks id).id }
  else s

def isolateTask (s : Sys) (id : TaskIndex) : Except Halt Sys :=
  let s := markIsolated s id
  if 2 ≤ isolatedCount s then
    let (mode, s) := consultPolicy (s.log .policyShutdown systemTaskId []) systemTaskId
      .multiModuleCrash 0
    applySystemAction s mode
  else .ok s

def applyAction (P : Platform) (s : Sys) (id : TaskIndex) (mode : FailureMode) : Except Halt Sys :=
  match mode with
  | .restart => .ok (restartTask P (s.log .taskRestart (s.tasks id).id []) id)
  | .isolate => isolateTask (s.log .policyIsolate (s.tasks id).id []) id
  | .degrade =>
    if s.degradeLogged then .ok (degradeSystem s)
    else .ok (degradeSystem
      ({ s with degradeLogged := true }.log .policyDegrade (s.tasks id).id []))
  | .failover => .ok (degradeSystem (s.log .policyFailover (s.tasks id).id []))
  | .alert => .ok s
  | .shutdown => .error .shutdown

/-- `apply_policy` and then `apply_action` on its answer. -/
def respond (P : Platform) (s : Sys) (id : TaskIndex) (taskId : ℕ) (event : PolicyEvent)
    (dal : ℕ) : Except Halt Sys :=
  let (mode, s) := consultPolicy s taskId event dal
  applyAction P s id mode

def handleTaskFault (P : Platform) (s : Sys) : Except Halt Sys :=
  if s.currentTask.val < s.taskCount then
    respond P s s.currentTask s.currentTask.val .taskFault s.current.dal
  else .ok s

/-! ## The phases of a timer tick -/

def periodTask (t : Task) : Task :=
  if 0 < t.periodTicks then
    let counter := wrappingAdd32 t.periodCounter 1
    if t.periodTicks ≤ counter then
      { t with
        periodCounter := 0
        remainingCycles := t.budgetCycles
        state := if isPeriodResetEligible t.state then .ready else t.state }
    else { t with periodCounter := counter }
  else t

def periodPhase (s : Sys) : Sys :=
  { s with tasks := fun i => if i.val < s.taskCount then periodTask (s.tasks i) else s.tasks i }

def cooldownOver (s : Sys) : Bool :=
  degradeCooldownTicks ≤ wrappingSub32 s.blackbox.currentTick s.degradeTick

/-- No DAL-A/B task is isolated. -/
def allHealthy (s : Sys) : Bool :=
  (List.finRange maxTasks).all fun i =>
    !(decide (i.val < s.taskCount) && decide ((s.tasks i).dal < 2) &&
      (s.tasks i).state == .isolated)

def recovers (s : Sys) : Bool := s.degraded && cooldownOver s && allHealthy s

def recoverTask (t : Task) : Task :=
  if 2 ≤ t.dal ∧ t.state = .suspended then
    { t with
      budgetCycles := t.originalBudget
      remainingCycles := t.originalBudget
      state := .ready }
  else t

def tryRecoverFromDegrade (s : Sys) : Sys :=
  if recovers s then
    Sys.log
      { s with
        tasks := fun i => if i.val < s.taskCount then recoverTask (s.tasks i) else s.tasks i
        degraded := false
        degradeLogged := false }
      .kernelBoot kernelBootId []
  else s

def pmpIntegrityPhase (s : Sys) : Except Halt Sys :=
  if s.pmp.verifyPmpIntegrity then .ok s
  else
    let (mode, s) := consultPolicy (s.log .pmpFail systemTaskId []) systemTaskId
      .pmpIntegrityFail 0
    applySystemAction s mode

/-- The rate counter restarts for a `Ready` or `Running` task, the watchdog counts for the
`Running` one. -/
def watchdogCount (t : Task) : Task :=
  let t := if t.state = .running ∨ t.state = .ready then { t with ipcSendCount := 0 } else t
  if t.state = .running then { t with watchdogCounter := saturatingAdd32 t.watchdogCounter 1 }
  else t

def watchdogTimesOut (t : Task) : Bool :=
  t.state == .running &&
    shouldWatchdogTimeout t.watchdogLimit (saturatingAdd32 t.watchdogCounter 1)

def clearWatchdog (s : Sys) (w : TaskIndex) : Sys :=
  s.setTask w { s.tasks w with watchdogCounter := 0 }

def watchdogTask (P : Platform) (s : Sys) (w : TaskIndex) : Except Halt Sys :=
  if w.val < s.taskCount then
    let t := s.tasks w
    let s := s.setTask w (watchdogCount t)
    if watchdogTimesOut t then do
      let s ← respond P (s.log .watchdogTimeout t.id []) w t.id .watchdogTimeout t.dal
      .ok (clearWatchdog s w)
    else .ok s
  else .ok s

def watchdogLoop (P : Platform) : Machine Sys TaskIndex Halt := ⟨fun _ => True, watchdogTask P⟩

def watchdogPhase (P : Platform) (s : Sys) : Except Halt Sys :=
  run (watchdogLoop P) s (List.finRange maxTasks)

/-- A zero budget switches the accounting off. -/
def budgetActive (t : Task) : Bool := decide (0 < t.budgetCycles) && t.state == .running

def chargeTick (t : Task) : Task :=
  { t with
    remainingCycles := t.remainingCycles - cyclesPerTick
    state := if t.remainingCycles - cyclesPerTick = 0 then .suspended else t.state }

def budgetExhausts (t : Task) : Bool :=
  budgetActive t && t.remainingCycles - cyclesPerTick == 0

def budgetPhase (P : Platform) (s : Sys) (old : TaskIndex) : Except Halt Sys :=
  let t := s.tasks old
  if budgetActive t then
    let s := s.setTask old (chargeTick t)
    if budgetExhausts t then
      respond P (s.log .budgetExhausted t.id [UInt8.ofNat t.id, UInt8.ofNat t.dal]) old t.id
        .budgetExhausted t.dal
    else .ok s
  else .ok s

/-- The tick up to the watchdog: counters, integrity check, periods and recovery. -/
def tickBeforeWatchdog (s : Sys) : Except Halt Sys := do
  let s ← pmpIntegrityPhase { s with blackbox := s.blackbox.advanceTick }
  .ok (tryRecoverFromDegrade (periodPhase s))

/-- Everything a tick does before it selects a task. -/
def tickPhases (P : Platform) (s : Sys) : Except Halt Sys := do
  let u ← tickBeforeWatchdog s
  let u ← watchdogPhase P u
  budgetPhase P u s.currentTask

/-! ## Selection and switch -/

def selectHighestPriority (states : List TaskState) (priorities : List ℕ) (count : ℕ) : Option ℕ :=
  (scan (fun i => isSelectableByScheduler (states.getD i .dead)) (fun i => priorities.getD i u8Max)
    u8Max (List.range (min count (min states.length priorities.length)))).1

def stateSnapshot (s : Sys) : List TaskState :=
  List.ofFn fun i : TaskIndex => if i.val < s.taskCount then (s.tasks i).state else .dead

def prioritySnapshot (s : Sys) : List ℕ :=
  List.ofFn fun i : TaskIndex => if i.val < s.taskCount then (s.tasks i).priority else 15

def selectNext (s : Sys) : Option TaskIndex :=
  (selectHighestPriority (stateSnapshot s) (prioritySnapshot s) s.taskCount).bind fun k =>
    if h : k < maxTasks then some ⟨k, h⟩ else none

/-- Where the `ret` of `switch_context` leads: back into the handler, or to `task_trampoline`. -/
inductive Flow where
  | resume | trampoline
  deriving DecidableEq, Repr

/-- The PMP entries of the task about to run. -/
def loadTaskPmp (P : Platform) (p : Pmp) (t : Task) (reason : String) : Except Halt Pmp :=
  if t.isSntmNative then
    match P.getPmpProfile t.id with
    | some profile =>
      if profile.activeRegions.isEmpty then .error (.haltSystem reason)
      else .ok (p.reloadPmpProfile profile)
    | none => .error (.haltSystem reason)
  else .ok ((p.writePerTaskNapot t.pmpAddrNapot pmpNapotRw).updateTaskPmpShadow t.pmpAddrNapot
    pmpNapotRw)

/-- The task table after the hand-over from `old` to `next`. -/
def handOver (tasks : TaskIndex → Task) (old next : TaskIndex) : TaskIndex → Task :=
  let tasks := if (tasks old).state = .running then
      Function.update tasks old { tasks old with state := .ready } else tasks
  Function.update tasks next { tasks next with state := .running }

def switchTo (P : Platform) (s : Sys) (old next : TaskIndex) : Except Halt (Sys × Flow) := do
  let tasks := handOver s.tasks old next
  let pmp ← loadTaskPmp P s.pmp (tasks next)
    "[SCHED] is_sntm_native task with EMPTY PMP_PROFILES — manifest drift"
  let hart := switchContext P s.hart old next
  let s := { s with tasks := tasks, currentTask := next, pmp := pmp, hart := hart }
  if hart.pc = P.taskTrampoline then .ok (s, .trampoline)
  else if hart.pc = P.switchReturn then .ok (s, .resume)
  else .error .nestedFault

/-- The task that the selection hands the CPU to, if it is not to stay where it is. -/
def switchTarget (s : Sys) (old : TaskIndex) : Option TaskIndex :=
  if s.taskCount < 2 then none
  else match selectNext s with
    | none => none
    | some next => if next = old ∧ (s.tasks old).state = .running then none else some next

def doPrioritySelectAndSwitch (P : Platform) (s : Sys) (old : TaskIndex) :
    Except Halt (Sys × Flow) :=
  match switchTarget s old with
  | none => .ok (s, .resume)
  | some next => switchTo P s old next

def scheduleTimerTick (P : Platform) (s : Sys) : Except Halt (Sys × Flow) :=
  if s.taskCount = 0 then .ok (s, .resume)
  else do
    let u ← tickPhases P s
    doPrioritySelectAndSwitch P u s.currentTask

def scheduleYield (P : Platform) (s : Sys) : Except Halt (Sys × Flow) :=
  if s.taskCount = 0 then .ok (s, .resume)
  else doPrioritySelectAndSwitch P s s.currentTask

/-! ## Counters used by the system calls -/

def kickTooEarly (t : Task) : Bool :=
  decide (0 < t.watchdogWindowMin) && decide (t.watchdogCounter < t.watchdogWindowMin)

/-- The window check of a kick. -/
def checkKickWindow (P : Platform) (s : Sys) : Except Halt Sys :=
  let t := s.current
  if kickTooEarly t then
    respond P (s.log .watchdogTimeout t.id []) s.currentTask t.id .watchdogTimeout t.dal
  else .ok s

def watchdogKick (P : Platform) (s : Sys) : Except Halt Sys :=
  if s.currentTask.val < s.taskCount then do
    let u ← checkKickWindow P s
    .ok (clearWatchdog u s.currentTask)
  else .ok s

def incrementSyscallCount (s : Sys) : Sys :=
  if s.currentTask.val < s.taskCount then
    s.setTask s.currentTask
      { s.current with syscallCount := wrappingAdd32 s.current.syscallCount 1 }
  else s

def checkIpcRate (s : Sys) : Bool :=
  decide (s.currentTask.val < s.taskCount) && decide (s.current.ipcSendCount < maxSendsPerTick)

def incrementIpcSend (s : Sys) : Sys :=
  if s.currentTask.val < s.taskCount then
    s.setTask s.currentTask { s.current with ipcSendCount := wrappingAdd32 s.current.ipcSendCount 1 }
  else s

/-! ## The first task -/

def bestReady (s : Sys) : Option TaskIndex :=
  (scan (fun i : TaskIndex => decide (i.val < s.taskCount) && (s.tasks i).state == .ready)
    (fun i => (s.tasks i).priority) u8Max (List.finRange maxTasks)).1

def enterFirstTask (P : Platform) (h : Hart Slot) (best : TaskIndex) : Hart Slot :=
  let entry := h.mem (.context best 112)
  let sp := h.mem (.context best 8)
  let mstatus := h.mem (.context best 120)
  let h := ((h.setCsr .mscratch P.stackTop).setCsr .mepc entry).setCsr .mstatus mstatus
  (execAll (h.setReg .sp sp) scrub).mret

def startFirstTask (P : Platform) (s : Sys) : Except Halt Sys :=
  if s.taskCount = 0 then .error (.haltSystem "[POLICY] SHUTDOWN — no tasks")
  else match bestReady s with
    | none => .error (.haltSystem "[POLICY] SHUTDOWN — no Ready task at boot")
    | some best => do
      let tasks := Function.update s.tasks best { s.tasks best with state := .running }
      let pmp ← loadTaskPmp P s.pmp (tasks best)
        "[BOOT] is_sntm_native task with EMPTY PMP_PROFILES — manifest drift"
      .ok { s with
        tasks := tasks
        currentTask := best
        pmp := pmp
        hart := enterFirstTask P s.hart best }

end KernelScheduler
