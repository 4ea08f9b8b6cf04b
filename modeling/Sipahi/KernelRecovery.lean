import Sipahi.KernelDegradation

/-!
# Recovery from degraded mode

The calls of a trap that concern the mode are listed in the order in which they are made, also
when the trap halts the system. Their list decides the flag, and the cooldown test compares two
32-bit readings whose true distance is the number of ticks in it.
-/
namespace KernelRecovery

open KernelTypes KernelPolicy KernelState KernelBlackbox KernelTrapFrame KernelScheduler
open KernelSyscall KernelTrap KernelHandlers KernelEvolution KernelSelection KernelBoot
open KernelTaskInvariants KernelDegradation KernelReference RiscvHart GuardedExecution

/-! ## The calls of a trap -/

/-- `recover q` is `try_recover_from_degrade` past its guards in the state `q`. -/
inductive ModeCall where
  | advanceTick
  | degradeSystem
  | recover (q : Sys)

/-- The calls that follow when the call before them returns. -/
def afterOk {α : Type} (x : Except Halt α) (calls : α → List ModeCall) : List ModeCall :=
  match x with
  | .ok a => calls a
  | .error _ => []

theorem afterOk_ok {α : Type} {a : α} {calls : α → List ModeCall} :
    afterOk (.ok a) calls = calls a := rfl

theorem afterOk_error {α : Type} {e : Halt} {calls : α → List ModeCall} :
    afterOk (.error e) calls = [] := rfl

def actionCalls : FailureMode → List ModeCall
  | .degrade | .failover => [.degradeSystem]
  | .restart | .isolate | .alert | .shutdown => []

def respondCalls (s : Sys) (taskId : ℕ) (event : PolicyEvent) (dal : ℕ) : List ModeCall :=
  actionCalls (consultPolicy s taskId event dal).1

def deadlineCalls (s : Sys) (mtime : ℕ) : List ModeCall :=
  let u := armNextTick s mtime
  if clockOverflows s mtime then []
  else if deadlineMissed s mtime then
    respondCalls (u.log .deadlineMiss u.currentTask.val []) u.currentTask.val .deadlineMiss
      u.current.dal
  else []

def recoveryCalls (s : Sys) : List ModeCall := if recovers s then [.recover s] else []

def watchdogTaskCalls (s : Sys) (w : TaskIndex) : List ModeCall :=
  if w.val < s.taskCount then
    let t := s.tasks w
    if watchdogTimesOut t then
      respondCalls ((s.setTask w (watchdogCount t)).log .watchdogTimeout t.id []) t.id
        .watchdogTimeout t.dal
    else []
  else []

def watchdogCalls (P : Platform) : Sys → List TaskIndex → List ModeCall
  | _, [] => []
  | s, w :: ws =>
    watchdogTaskCalls s w ++ afterOk (watchdogTask P s w) fun u => watchdogCalls P u ws

def budgetCalls (s : Sys) (old : TaskIndex) : List ModeCall :=
  let t := s.tasks old
  if budgetExhausts t then
    respondCalls ((s.setTask old (chargeTick t)).log .budgetExhausted t.id
      [UInt8.ofNat t.id, UInt8.ofNat t.dal]) t.id .budgetExhausted t.dal
  else []

/-- After the recovery test: the watchdog loop and the budget. -/
def accountingCalls (P : Platform) (s : Sys) (old : TaskIndex) : List ModeCall :=
  watchdogCalls P s (List.finRange maxTasks) ++
    afterOk (watchdogPhase P s) fun u => budgetCalls u old

def tickCalls (P : Platform) (s : Sys) : List ModeCall :=
  .advanceTick :: afterOk (pmpIntegrityPhase { s with blackbox := s.blackbox.advanceTick })
    fun u => recoveryCalls (periodPhase u) ++
      accountingCalls P (tryRecoverFromDegrade (periodPhase u)) s.currentTask

def timerCalls (P : Platform) (s : Sys) (mtime : ℕ) : List ModeCall :=
  deadlineCalls s mtime ++ afterOk (deadlinePhase P s mtime) fun u =>
    if u.taskCount = 0 then [] else tickCalls P u

def recordCapCalls (s : Sys) (ok : Bool) : List ModeCall :=
  let caller := s.currentTask
  if ok then []
  else if 3 ≤ saturatingAdd8 (s.capFailCount caller) 1 then
    respondCalls ({ s with capFailCount := Function.update s.capFailCount caller 0 }.log
      .capViolation caller.val []) caller.val .capViolation s.current.dal
  else []

def capInvokeCalls (P : Platform) (s : Sys) (cap resource action : ℕ) : List ModeCall :=
  if u8Max < cap ∨ u16Max < resource ∨ u8Max < action then []
  else match capabilityGranted P s cap resource action with
    | none => []
    | some ok => recordCapCalls s ok

def kickCalls (s : Sys) : List ModeCall :=
  let t := s.current
  if s.currentTask.val < s.taskCount ∧ kickTooEarly t = true then
    respondCalls (s.log .watchdogTimeout t.id []) t.id .watchdogTimeout t.dal
  else []

/-- `sys_exit` isolates through the system-wide path, which never degrades. -/
def syscallCalls (P : Platform) (s : Sys) (syscallId arg0 arg1 arg2 : ℕ) : List ModeCall :=
  match syscallId with
  | 0 => capInvokeCalls P s arg0 arg1 arg2
  | 3 => kickCalls s
  | _ => []

def dispatchCalls (P : Platform) (s : Sys) (syscallId arg0 arg1 arg2 : ℕ) : List ModeCall :=
  if syscallCount ≤ syscallId then []
  else syscallCalls P (incrementSyscallCount s) syscallId arg0 arg1 arg2

def taskFaultCalls (s : Sys) : List ModeCall :=
  if s.currentTask.val < s.taskCount then
    respondCalls s s.currentTask.val .taskFault s.current.dal
  else []

def accessFaultCalls (P : Platform) (s : Sys) (faultAddr : ℕ) : List ModeCall :=
  if P.taskStacksStart ≤ faultAddr ∧ faultAddr < P.taskStacksEnd then
    respondCalls s s.currentTask.val .stackOverflow s.current.dal
  else taskFaultCalls s

def exceptionCalls (P : Platform) (s : Sys) (mcause syscallId arg0 arg1 arg2 : ℕ) :
    List ModeCall :=
  match mcause with
  | 8 | 11 => afterOk (verifyMppIsUserMode s mcause) fun _ =>
      dispatchCalls P s syscallId arg0 arg1 arg2
  | 0 | 2 | 3 | 4 | 6 => taskFaultCalls (s.log .policyIsolate systemTaskId [])
  | 5 | 7 => accessFaultCalls P (s.log .pmpFail s.currentTask.val []) (s.hart.csrs .mtval)
  | _ => []

def handlerCalls (P : Platform) (s : Sys) (mtime mcause syscallId arg0 arg1 arg2 : ℕ) :
    List ModeCall :=
  if mcause &&& interruptBit ≠ 0 then
    if mcause % interruptBit = 7 then timerCalls P s mtime else []
  else exceptionCalls P s mcause syscallId arg0 arg1 arg2

/-- All the calls of the trap `e` taken in `s`. -/
def modeCalls (P : Platform) (s : Sys) (e : TrapEvent) : List ModeCall :=
  afterOk (enterHandler P s e) fun entered =>
    handlerCalls P entered.1 e.mtime (entered.2 .a0) (entered.2 .a2) (entered.2 .a3)
      (entered.2 .a4) (entered.2 .a5)

/-- The calls of a run, up to the trap that halts the system. -/
def history (P : Platform) : Sys → List TrapEvent → List ModeCall
  | _, [] => []
  | s, e :: es => modeCalls P s e ++ afterOk (trap P s e) fun u => history P u es

/-! ## The mode after a list of calls -/

def flagAfter (degraded : Bool) : ModeCall → Bool
  | .advanceTick => degraded
  | .degradeSystem => true
  | .recover _ => false

def clockAfter (elapsed : Option ℕ) : ModeCall → Option ℕ
  | .advanceTick => elapsed.map (· + 1)
  | .degradeSystem => some 0
  | .recover _ => elapsed

/-- The ticks since the most recent call of `degrade_system`, if there was one. -/
def ticksSinceDegrade (calls : List ModeCall) : Option ℕ := calls.foldl clockAfter none

/-- The flag and the two clock readings agree with the calls so far. -/
structure Accounts (calls : List ModeCall) (s : Sys) : Prop where
  flag : s.degraded = calls.foldl flagAfter false
  tick : s.blackbox.tick < 2 ^ 32
  known : s.degraded = true → ∃ d, ticksSinceDegrade calls = some d
  elapsed : ∀ d, ticksSinceDegrade calls = some d →
    s.degradeTick < 2 ^ 32 ∧ s.blackbox.tick = (s.degradeTick + d) % 2 ^ 32

/-- Neither the mode nor its clock changes. -/
structure ClockKept (s u : Sys) : Prop where
  degraded : u.degraded = s.degraded
  degradeTick : u.degradeTick = s.degradeTick
  tick : u.blackbox.tick = s.blackbox.tick

theorem ClockKept.refl (s : Sys) : ClockKept s s := ⟨rfl, rfl, rfl⟩

theorem ClockKept.trans {s u v : Sys} (a : ClockKept s u) (b : ClockKept u v) : ClockKept s v :=
  ⟨b.degraded.trans a.degraded, b.degradeTick.trans a.degradeTick, b.tick.trans a.tick⟩

theorem ipcFrame_clockKept {s u : Sys} (h : IpcFrame s u) : ClockKept s u := by
  obtain ⟨⟨tasks, pool, mem, rfl⟩, -⟩ := h
  exact ⟨rfl, rfl, rfl⟩

theorem isolateTask_clockKept {s u : Sys} {id : TaskIndex} (h : isolateTask s id = .ok u) :
    ClockKept s u := by
  obtain ⟨rfl, -⟩ := isolateTask_ok h
  obtain ⟨tasks, cache, hrest⟩ := (markIsolated_frame s id).rest
  rw [hrest]
  exact ⟨rfl, rfl, rfl⟩

theorem log_clockKept (s : Sys) (event : BlackboxEvent) (taskId : ℕ) (data : List UInt8) :
    ClockKept s (s.log event taskId data) := by
  refine ⟨rfl, rfl, ?_⟩
  simp only [Sys.log, Blackbox.log]
  split <;> rfl

section

variable {calls : List ModeCall} {P : Platform} {s u : Sys}

theorem Accounts.kept (h : Accounts calls s) (hk : ClockKept s u) : Accounts calls u where
  flag := hk.degraded.trans h.flag
  tick := hk.tick ▸ h.tick
  known := fun hd => h.known (hk.degraded ▸ hd)
  elapsed := fun d hd => by
    rw [hk.tick, hk.degradeTick]
    exact h.elapsed d hd

theorem accounts_degrade (h : Accounts calls s) :
    Accounts (calls ++ [.degradeSystem]) (degradeSystem s) where
  flag := by
    rw [List.foldl_append]
    rfl
  tick := h.tick
  known := fun _ => ⟨0, by simp [ticksSinceDegrade, clockAfter]⟩
  elapsed := fun d hd => by
    have hzero : d = 0 := by
      simpa [ticksSinceDegrade, clockAfter, eq_comm] using hd
    subst d
    have htick := h.tick
    refine ⟨htick, ?_⟩
    simp only [degradeSystem, Blackbox.currentTick, Nat.add_zero]
    exact (Nat.mod_eq_of_lt htick).symm

theorem accounts_advanceTick (h : Accounts calls s) :
    Accounts (calls ++ [.advanceTick]) { s with blackbox := s.blackbox.advanceTick } where
  flag := by
    rw [List.foldl_append]
    exact h.flag
  tick := Nat.mod_lt _ (by decide)
  known := fun hd => by
    obtain ⟨d, hd⟩ := h.known hd
    refine ⟨d + 1, ?_⟩
    rw [ticksSinceDegrade] at hd ⊢
    simp [hd, clockAfter]
  elapsed := fun d hd => by
    simp only [ticksSinceDegrade, List.foldl_append, List.foldl_cons, List.foldl_nil, clockAfter,
      Option.map_eq_some_iff] at hd
    obtain ⟨d', hd', rfl⟩ := hd
    obtain ⟨hlt, htick⟩ := h.elapsed d' hd'
    refine ⟨hlt, ?_⟩
    simp only [Blackbox.advanceTick, wrappingAdd32, htick]
    omega

theorem accounts_recovery (h : Accounts calls s) :
    Accounts (calls ++ recoveryCalls s) (tryRecoverFromDegrade s) := by
  rw [recoveryCalls, tryRecoverFromDegrade]
  split
  · refine Accounts.kept (s := { s with
      tasks := fun i => if i.val < s.taskCount then recoverTask (s.tasks i) else s.tasks i
      degraded := false
      degradeLogged := false }) ?_ (log_clockKept ..)
    have hclock : ticksSinceDegrade (calls ++ [.recover s]) = ticksSinceDegrade calls := by
      rw [ticksSinceDegrade, List.foldl_append]
      rfl
    refine ⟨?_, h.tick, fun hd => ?_, fun d hd => ?_⟩
    · rw [List.foldl_append]
      rfl
    · cases hd
    · rw [hclock] at hd
      exact h.elapsed d hd
  · rw [List.append_nil]
    exact h

/-- The cooldown test is about the true number of ticks, also across wraps of the counter. -/
theorem cooldownOver_elapsed {d : ℕ} (h : Accounts calls s) (hd : ticksSinceDegrade calls = some d)
    (hc : cooldownOver s = true) : degradeCooldownTicks ≤ d := by
  obtain ⟨hlt, htick⟩ := h.elapsed d hd
  rw [cooldownOver, decide_eq_true_eq] at hc
  simp only [wrappingSub32, Blackbox.currentTick, htick] at hc
  have hdiff : ((s.degradeTick + d) % 2 ^ 32 + 2 ^ 32 - s.degradeTick) % 2 ^ 32 = d % 2 ^ 32 := by
    omega
  rw [hdiff] at hc
  exact hc.trans (Nat.mod_le d _)

/-! ## One trap -/

theorem applyAction_accounts {id : TaskIndex} {mode : FailureMode} (h : Accounts calls s)
    (ha : applyAction P s id mode = .ok u) : Accounts (calls ++ actionCalls mode) u := by
  cases mode with
  | restart =>
    rw [actionCalls, List.append_nil]
    cases ha
    have hlog := h.kept (log_clockKept s .taskRestart (s.tasks id).id [])
    obtain ⟨hart, hrest⟩ := restartTask_rest P (s.log .taskRestart (s.tasks id).id []) id
    rw [hrest]
    exact hlog.kept ⟨rfl, rfl, rfl⟩
  | isolate =>
    rw [actionCalls, List.append_nil]
    have hlog := h.kept (log_clockKept s .policyIsolate (s.tasks id).id [])
    exact hlog.kept (isolateTask_clockKept ha)
  | degrade =>
    simp only [applyAction] at ha
    split at ha
    · cases ha
      exact accounts_degrade h
    · cases ha
      refine accounts_degrade (Accounts.kept ?_ (log_clockKept { s with degradeLogged := true } ..))
      exact h.kept ⟨rfl, rfl, rfl⟩
  | failover =>
    cases ha
    exact accounts_degrade (h.kept (log_clockKept ..))
  | alert =>
    rw [actionCalls, List.append_nil]
    cases ha
    exact h
  | shutdown => cases ha

theorem respond_accounts {id : TaskIndex} {taskId dal : ℕ} {event : PolicyEvent}
    (h : Accounts calls s) (hr : respond P s id taskId event dal = .ok u) :
    Accounts (calls ++ respondCalls s taskId event dal) u := by
  have hs : Accounts calls (consultPolicy s taskId event dal).2 := h.kept ⟨rfl, rfl, rfl⟩
  exact applyAction_accounts hs hr

theorem deadlinePhase_accounts {mtime : ℕ} (h : Accounts calls s)
    (hp : deadlinePhase P s mtime = .ok u) : Accounts (calls ++ deadlineCalls s mtime) u := by
  have harm : Accounts calls (armNextTick s mtime) := h.kept ⟨rfl, rfl, rfl⟩
  obtain ⟨hclock, hp⟩ := deadlinePhase_ok.mp hp
  simp only [answerDeadline] at hp
  simp only [deadlineCalls, hclock, Bool.false_eq_true, if_false]
  split at hp
  · rename_i hmiss
    rw [if_pos hmiss]
    exact respond_accounts (harm.kept (log_clockKept ..)) hp
  · rename_i hmet
    rw [if_neg hmet, List.append_nil]
    cases hp
    exact harm

theorem watchdogTask_accounts {w : TaskIndex} (h : Accounts calls s)
    (hp : watchdogTask P s w = .ok u) : Accounts (calls ++ watchdogTaskCalls s w) u := by
  have hcount : Accounts calls (s.setTask w (watchdogCount (s.tasks w))) := h.kept ⟨rfl, rfl, rfl⟩
  simp only [watchdogTask] at hp
  simp only [watchdogTaskCalls]
  split at hp
  · rename_i hw
    rw [if_pos hw]
    split at hp
    · rename_i hout
      rw [if_pos hout]
      obtain ⟨q, hq, hu⟩ := bind_eq_ok.mp hp
      cases hu
      have hresponse := respond_accounts (hcount.kept (log_clockKept ..)) hq
      exact hresponse.kept ⟨rfl, rfl, rfl⟩
    · rename_i hin
      rw [if_neg hin, List.append_nil]
      cases hp
      exact hcount
  · rename_i hw
    rw [if_neg hw, List.append_nil]
    cases hp
    exact h

theorem watchdogRun_accounts {ws : List TaskIndex} (h : Accounts calls s)
    (hp : run (watchdogLoop P) s ws = .ok u) : Accounts (calls ++ watchdogCalls P s ws) u := by
  induction ws generalizing s calls with
  | nil =>
    cases hp
    rw [watchdogCalls, List.append_nil]
    exact h
  | cons w ws ih =>
    obtain ⟨q, hq, hu⟩ := run_cons_ok.mp hp
    have hq' : watchdogTask P s w = .ok q := hq
    rw [watchdogCalls, hq', ← List.append_assoc]
    exact ih (watchdogTask_accounts h hq') hu

theorem budgetPhase_accounts {old : TaskIndex} (h : Accounts calls s)
    (hp : budgetPhase P s old = .ok u) : Accounts (calls ++ budgetCalls s old) u := by
  have hcharge : Accounts calls (s.setTask old (chargeTick (s.tasks old))) :=
    h.kept ⟨rfl, rfl, rfl⟩
  simp only [budgetPhase] at hp
  simp only [budgetCalls]
  split at hp
  · split at hp
    · rename_i hout
      rw [if_pos hout]
      exact respond_accounts (hcharge.kept (log_clockKept ..)) hp
    · rename_i hin
      rw [if_neg hin, List.append_nil]
      cases hp
      exact hcharge
  · rename_i hoff
    have hin : ¬ budgetExhausts (s.tasks old) = true := by
      simp [budgetExhausts, hoff]
    rw [if_neg hin, List.append_nil]
    cases hp
    exact h

theorem tickPhases_accounts (h : Accounts calls s) (hp : tickPhases P s = .ok u) :
    Accounts (calls ++ tickCalls P s) u := by
  rw [tickPhases] at hp
  obtain ⟨q, hq, hp⟩ := bind_eq_ok.mp hp
  obtain ⟨v, hv, hu⟩ := bind_eq_ok.mp hp
  rw [tickBeforeWatchdog] at hq
  obtain ⟨x, hx, hq⟩ := bind_eq_ok.mp hq
  cases hq
  rw [tickCalls, hx]
  simp only [afterOk, accountingCalls, hv]
  obtain rfl := pmpIntegrityPhase_ok hx
  have htick := accounts_advanceTick h
  have hperiod : Accounts (calls ++ [.advanceTick])
      (periodPhase { s with blackbox := s.blackbox.advanceTick }) := htick.kept ⟨rfl, rfl, rfl⟩
  have hbudget := budgetPhase_accounts (watchdogRun_accounts (accounts_recovery hperiod) hv) hu
  simpa using hbudget

theorem select_clockKept {old : TaskIndex} {flow : Flow}
    (h : doPrioritySelectAndSwitch P s old = .ok (u, flow)) : ClockKept s u := by
  rcases select_cases h with ⟨-, rfl, -⟩ | ⟨next, -, hs⟩
  · exact .refl _
  · obtain ⟨pmp, rfl⟩ := hs.state
    exact ⟨rfl, rfl, rfl⟩

theorem scheduleYield_clockKept {flow : Flow} (h : scheduleYield P s = .ok (u, flow)) :
    ClockKept s u := by
  rw [scheduleYield] at h
  split at h
  · cases h
    exact .refl _
  · exact select_clockKept h

theorem timerInterrupt_accounts {mtime : ℕ} {r : Option ℕ} (h : Accounts calls s)
    (hp : timerInterrupt P s mtime = .ok (u, r)) : Accounts (calls ++ timerCalls P s mtime) u := by
  rw [timerInterrupt] at hp
  obtain ⟨v, hv, hp⟩ := bind_eq_ok.mp hp
  obtain ⟨⟨w, flow⟩, hw, hp⟩ := bind_eq_ok.mp hp
  obtain ⟨rfl, -⟩ := answerZeroUnlessStarted_eq (Except.ok.inj hp)
  have hdeadline := deadlinePhase_accounts h hv
  rw [timerCalls, hv, ← List.append_assoc]
  rw [scheduleTimerTick] at hw
  simp only [afterOk]
  split at hw
  · rename_i hnone
    rw [if_pos hnone, List.append_nil]
    cases hw
    exact hdeadline
  · rename_i hsome
    rw [if_neg hsome]
    obtain ⟨q, hq, hw⟩ := bind_eq_ok.mp hw
    exact (tickPhases_accounts hdeadline hq).kept (select_clockKept hw)

theorem sysCapInvoke_accounts {cap resource action r : ℕ} (h : Accounts calls s)
    (hp : sysCapInvoke P s cap resource action = .ok (u, r)) :
    Accounts (calls ++ capInvokeCalls P s cap resource action) u := by
  rw [sysCapInvoke] at hp
  rw [capInvokeCalls]
  split at hp
  · rename_i hbad
    rw [if_pos hbad, List.append_nil]
    cases hp
    exact h
  · rename_i hgood
    rw [if_neg hgood]
    cases hgranted : capabilityGranted P s cap resource action with
    | none =>
      rw [hgranted] at hp
      cases hp
      rw [List.append_nil]
      exact h
    | some ok =>
      rw [hgranted] at hp
      obtain ⟨q, hq, hp⟩ := bind_eq_ok.mp hp
      cases hp
      simp only [recordCapResult] at hq
      simp only [recordCapCalls]
      split at hq
      · rename_i hok
        rw [if_pos hok, List.append_nil]
        cases hq
        exact h.kept ⟨rfl, rfl, rfl⟩
      · rename_i hfail
        rw [if_neg hfail]
        split at hq
        · rename_i hthree
          rw [if_pos hthree]
          have hreset : ClockKept s
              { s with capFailCount := Function.update s.capFailCount s.currentTask 0 } :=
            ⟨rfl, rfl, rfl⟩
          exact respond_accounts ((h.kept hreset).kept (log_clockKept ..)) hq
        · rename_i hfew
          rw [if_neg hfew, List.append_nil]
          cases hq
          exact h.kept ⟨rfl, rfl, rfl⟩

theorem watchdogKick_accounts (h : Accounts calls s) (hp : watchdogKick P s = .ok u) :
    Accounts (calls ++ kickCalls s) u := by
  rw [watchdogKick] at hp
  simp only [kickCalls]
  split at hp
  · rename_i hin
    obtain ⟨q, hq, hu⟩ := bind_eq_ok.mp hp
    cases hu
    refine Accounts.kept (s := q) ?_ ⟨rfl, rfl, rfl⟩
    simp only [checkKickWindow] at hq
    split at hq
    · rename_i hearly
      rw [if_pos ⟨hin, hearly⟩]
      exact respond_accounts (h.kept (log_clockKept ..)) hq
    · rename_i hlate
      rw [if_neg fun hk => hlate hk.2, List.append_nil]
      cases hq
      exact h
  · rename_i hout
    rw [if_neg fun hk => hout hk.1, List.append_nil]
    cases hp
    exact h

theorem syscallTable_accounts {syscallId arg0 arg1 arg2 : ℕ} {r : Option ℕ} (h : Accounts calls s)
    (hp : syscallTable P s syscallId arg0 arg1 arg2 = .ok (u, r)) :
    Accounts (calls ++ syscallCalls P s syscallId arg0 arg1 arg2) u := by
  simp only [syscallTable] at hp
  split at hp
  · obtain ⟨⟨v, x⟩, hv, hu⟩ := bind_eq_ok.mp hp
    cases hu
    exact sysCapInvoke_accounts h hv
  · cases hp
    simp only [syscallCalls, List.append_nil]
    exact h.kept (ipcFrame_clockKept (sysIpcSend_frame ..))
  · cases hp
    simp only [syscallCalls, List.append_nil]
    exact h.kept (ipcFrame_clockKept (sysIpcRecv_frame ..))
  · obtain ⟨q, hq, hp⟩ := bind_eq_ok.mp hp
    obtain ⟨⟨v, flow⟩, hv, hu⟩ := bind_eq_ok.mp hp
    obtain ⟨rfl, -⟩ := okUnlessStarted_eq (Except.ok.inj hu)
    exact (watchdogKick_accounts h hq).kept (scheduleYield_clockKept hv)
  · cases hp
    simp only [syscallCalls, List.append_nil]
    exact h
  · obtain ⟨q, hq, hp⟩ := bind_eq_ok.mp hp
    obtain ⟨⟨v, flow⟩, hv, hu⟩ := bind_eq_ok.mp hp
    obtain ⟨rfl, -⟩ := okUnlessStarted_eq (Except.ok.inj hu)
    simp only [syscallCalls, List.append_nil]
    exact (h.kept (isolateTask_clockKept hq)).kept (scheduleYield_clockKept hv)
  · cases hp

theorem dispatch_accounts {syscallId arg0 arg1 arg2 : ℕ} {r : Option ℕ} (h : Accounts calls s)
    (hp : dispatch P s syscallId arg0 arg1 arg2 = .ok (u, r)) :
    Accounts (calls ++ dispatchCalls P s syscallId arg0 arg1 arg2) u := by
  rw [dispatch] at hp
  rw [dispatchCalls]
  split at hp
  · rename_i hbad
    rw [if_pos hbad, List.append_nil]
    cases hp
    exact h
  · rename_i hgood
    rw [if_neg hgood]
    obtain ⟨⟨v, x⟩, hv, hu⟩ := bind_eq_ok.mp hp
    cases hu
    exact syscallTable_accounts (h.kept (ipcFrame_clockKept (incrementSyscallCount_frame s))) hv

theorem handleTaskFault_accounts (h : Accounts calls s) (hp : handleTaskFault P s = .ok u) :
    Accounts (calls ++ taskFaultCalls s) u := by
  rw [handleTaskFault] at hp
  rw [taskFaultCalls]
  split at hp
  · rename_i hin
    rw [if_pos hin]
    exact respond_accounts h hp
  · rename_i hout
    rw [if_neg hout, List.append_nil]
    cases hp
    exact h

theorem respondToAccessFault_accounts {faultAddr : ℕ} (h : Accounts calls s)
    (hp : respondToAccessFault P s faultAddr = .ok u) :
    Accounts (calls ++ accessFaultCalls P s faultAddr) u := by
  rw [respondToAccessFault] at hp
  rw [accessFaultCalls]
  split at hp
  · rename_i hin
    rw [if_pos hin]
    exact respond_accounts h hp
  · rename_i hout
    rw [if_neg hout]
    exact handleTaskFault_accounts h hp

theorem exceptionTrap_accounts {mcause syscallId arg0 arg1 arg2 : ℕ} {r : Option ℕ}
    (h : Accounts calls s)
    (hp : exceptionTrap P s mcause syscallId arg0 arg1 arg2 = .ok (u, r)) :
    Accounts (calls ++ exceptionCalls P s mcause syscallId arg0 arg1 arg2) u := by
  simp only [exceptionTrap] at hp
  split at hp
  case h_1 | h_2 =>
    obtain ⟨x, hx, hp⟩ := bind_eq_ok.mp hp
    simp only [exceptionCalls, hx, afterOk]
    exact dispatch_accounts h hp
  case h_3 | h_4 | h_5 | h_6 | h_7 =>
    obtain ⟨q, hq, hp⟩ := bind_eq_ok.mp hp
    cases hp
    exact handleTaskFault_accounts (h.kept (log_clockKept ..)) hq
  case h_8 | h_9 =>
    obtain ⟨q, hq, hp⟩ := bind_eq_ok.mp hp
    cases hp
    exact respondToAccessFault_accounts (h.kept (log_clockKept ..)) hq
  all_goals cases hp

theorem trapHandler_accounts {mtime mcause syscallId arg0 arg1 arg2 : ℕ} {r : Option ℕ}
    (h : Accounts calls s)
    (hp : trapHandler P s mtime mcause syscallId arg0 arg1 arg2 = .ok (u, r)) :
    Accounts (calls ++ handlerCalls P s mtime mcause syscallId arg0 arg1 arg2) u := by
  rw [trapHandler] at hp
  rw [handlerCalls]
  split at hp
  · rename_i hint
    rw [if_pos hint]
    split at hp
    · rename_i htimer
      rw [if_pos htimer]
      exact timerInterrupt_accounts h hp
    · rename_i hother
      rw [if_neg hother, List.append_nil]
      cases hp
      exact h
  · rename_i hexception
    rw [if_neg hexception]
    exact exceptionTrap_accounts h hp

theorem enterHandler_clockKept {e : TrapEvent} {args : Reg → ℕ}
    (h : enterHandler P s e = .ok (u, args)) : ClockKept s u := by
  obtain ⟨k, -, -, rfl⟩ := enterHandler_ok h
  exact ⟨rfl, rfl, rfl⟩

theorem leaveHandler_clockKept (P : Platform) (w : Sys) (r : Option ℕ) :
    ClockKept w (leaveHandler P (w, r)) := by
  cases r <;> exact ⟨rfl, rfl, rfl⟩

theorem trap_accounts {e : TrapEvent} (h : Accounts calls s) (hp : trap P s e = .ok u) :
    Accounts (calls ++ modeCalls P s e) u := by
  rw [trap] at hp
  obtain ⟨⟨v, args⟩, hv, hp⟩ := bind_eq_ok.mp hp
  obtain ⟨⟨w, r⟩, hw, hp⟩ := bind_eq_ok.mp hp
  cases hp
  rw [modeCalls, hv]
  have hserved := trapHandler_accounts (h.kept (enterHandler_clockKept hv)) hw
  exact hserved.kept (leaveHandler_clockKept P w r)

/-! ## Where a trap can recover -/

/-- None of these calls recovers. -/
def NoRecovery (calls : List ModeCall) : Prop := ∀ q, .recover q ∉ calls

theorem noRecovery_nil : NoRecovery [] := fun _ h => by cases h

theorem NoRecovery.append {calls' : List ModeCall} (h : NoRecovery calls) (h' : NoRecovery calls') :
    NoRecovery (calls ++ calls') := by
  intro q hq
  rcases List.mem_append.mp hq with hq | hq
  · exact h q hq
  · exact h' q hq

theorem noRecovery_afterOk {α : Type} {x : Except Halt α} {f : α → List ModeCall}
    (h : ∀ a, NoRecovery (f a)) : NoRecovery (afterOk x f) := by
  cases x with
  | ok a => exact h a
  | error e => exact noRecovery_nil

theorem respondCalls_noRecovery (s : Sys) (taskId : ℕ) (event : PolicyEvent) (dal : ℕ) :
    NoRecovery (respondCalls s taskId event dal) := by
  intro q hq
  rw [respondCalls] at hq
  cases hmode : (consultPolicy s taskId event dal).1 <;> simp [hmode, actionCalls] at hq

theorem deadlineCalls_noRecovery (s : Sys) (mtime : ℕ) : NoRecovery (deadlineCalls s mtime) := by
  simp only [deadlineCalls]
  split
  · exact noRecovery_nil
  · split
    · exact respondCalls_noRecovery _ _ _ _
    · exact noRecovery_nil

theorem watchdogCalls_noRecovery (P : Platform) (s : Sys) (ws : List TaskIndex) :
    NoRecovery (watchdogCalls P s ws) := by
  induction ws generalizing s with
  | nil => exact noRecovery_nil
  | cons w ws ih =>
    rw [watchdogCalls]
    refine NoRecovery.append ?_ (noRecovery_afterOk ih)
    simp only [watchdogTaskCalls]
    split
    · split
      · exact respondCalls_noRecovery _ _ _ _
      · exact noRecovery_nil
    · exact noRecovery_nil

theorem accountingCalls_noRecovery (P : Platform) (s : Sys) (old : TaskIndex) :
    NoRecovery (accountingCalls P s old) := by
  refine (watchdogCalls_noRecovery P s _).append (noRecovery_afterOk fun u => ?_)
  simp only [budgetCalls]
  split
  · exact respondCalls_noRecovery _ _ _ _
  · exact noRecovery_nil

theorem taskFaultCalls_noRecovery (s : Sys) : NoRecovery (taskFaultCalls s) := by
  rw [taskFaultCalls]
  split
  · exact respondCalls_noRecovery _ _ _ _
  · exact noRecovery_nil

theorem dispatchCalls_noRecovery (P : Platform) (s : Sys) (syscallId arg0 arg1 arg2 : ℕ) :
    NoRecovery (dispatchCalls P s syscallId arg0 arg1 arg2) := by
  rw [dispatchCalls]
  split
  · exact noRecovery_nil
  · simp only [syscallCalls]
    split
    · rw [capInvokeCalls]
      split
      · exact noRecovery_nil
      · split
        · exact noRecovery_nil
        · simp only [recordCapCalls]
          split
          · exact noRecovery_nil
          · split
            · exact respondCalls_noRecovery _ _ _ _
            · exact noRecovery_nil
    · simp only [kickCalls]
      split
      · exact respondCalls_noRecovery _ _ _ _
      · exact noRecovery_nil
    · exact noRecovery_nil

theorem exceptionCalls_noRecovery (P : Platform) (s : Sys)
    (mcause syscallId arg0 arg1 arg2 : ℕ) :
    NoRecovery (exceptionCalls P s mcause syscallId arg0 arg1 arg2) := by
  simp only [exceptionCalls]
  split
  case h_1 | h_2 => exact noRecovery_afterOk fun _ => dispatchCalls_noRecovery _ _ _ _ _ _
  case h_3 | h_4 | h_5 | h_6 | h_7 => exact taskFaultCalls_noRecovery _
  case h_8 | h_9 =>
    rw [accessFaultCalls]
    split
    · exact respondCalls_noRecovery _ _ _ _
    · exact taskFaultCalls_noRecovery _
  case h_10 => exact noRecovery_nil

/-- The handler started in `u` recovers in the state `q`, after the calls `before`. -/
structure RecoversAt (P : Platform) (u : Sys) (mtime mcause : ℕ) (before : List ModeCall)
    (q : Sys) : Prop where
  timer : IsTimer mcause
  deadline : ∃ v, deadlinePhase P u mtime = .ok v ∧
    q = periodPhase { v with blackbox := v.blackbox.advanceTick }
  calls : before = deadlineCalls u mtime ++ [.advanceTick]
  recovers : KernelScheduler.recovers q = true

/-- A call that occurs once in a list is found at one place only. -/
theorem recover_position {x y before after : List ModeCall} {p q : Sys} (hx : NoRecovery x)
    (hy : NoRecovery y) (h : x ++ .recover p :: y = before ++ .recover q :: after) :
    before = x ∧ q = p := by
  rcases List.append_eq_append_iff.mp h with ⟨z, hz, htail⟩ | ⟨z, hz, htail⟩
  · cases z with
    | nil =>
      obtain ⟨hp, -⟩ := List.cons.inj htail
      exact ⟨by simpa using hz, (ModeCall.recover.inj hp).symm⟩
    | cons c z =>
      obtain ⟨-, htail⟩ := List.cons.inj htail
      exact absurd (by simp [htail]) (hy q)
  · cases z with
    | nil =>
      obtain ⟨hp, -⟩ := List.cons.inj htail
      exact ⟨by simpa using hz.symm, ModeCall.recover.inj hp⟩
    | cons c z =>
      obtain ⟨rfl, -⟩ := List.cons.inj htail
      exact absurd (by simp [hz]) (hx q)

theorem timerCalls_recover {mtime mcause : ℕ} {before after : List ModeCall} {q : Sys}
    (ht : IsTimer mcause) (h : timerCalls P s mtime = before ++ .recover q :: after) :
    RecoversAt P s mtime mcause before q := by
  have hdeadline := deadlineCalls_noRecovery s mtime
  have hmem : .recover q ∈ timerCalls P s mtime := by simp [h]
  rw [timerCalls] at h hmem
  cases hv : deadlinePhase P s mtime with
  | error e =>
    simp only [hv, afterOk_error, List.append_nil] at hmem
    exact absurd hmem (hdeadline q)
  | ok v =>
    simp only [hv, afterOk_ok] at h hmem
    split at hmem
    · rw [List.append_nil] at hmem
      exact absurd hmem (hdeadline q)
    · rename_i hsome
      rw [if_neg hsome, tickCalls] at h
      rw [tickCalls] at hmem
      cases hu : pmpIntegrityPhase { v with blackbox := v.blackbox.advanceTick } with
      | error e =>
        simp only [hu, afterOk_error] at hmem
        exact absurd hmem (hdeadline.append (by simp [NoRecovery]) q)
      | ok u =>
        have huv := pmpIntegrityPhase_ok hu
        have hrest := accountingCalls_noRecovery P (tryRecoverFromDegrade (periodPhase u))
          v.currentTask
        simp only [hu, afterOk_ok, recoveryCalls] at h hmem
        by_cases hrec : recovers (periodPhase u) = true
        · rw [if_pos hrec] at h
          have hbefore : NoRecovery (deadlineCalls s mtime ++ [.advanceTick]) :=
            hdeadline.append (by simp [NoRecovery])
          obtain ⟨hb, rfl⟩ := recover_position hbefore hrest (by simpa using h)
          exact ⟨ht, ⟨v, hv, by rw [huv]⟩, hb, hrec⟩
        · rw [if_neg hrec] at hmem
          have hnone : NoRecovery ([.advanceTick] ++ accountingCalls P
              (tryRecoverFromDegrade (periodPhase u)) v.currentTask) :=
            NoRecovery.append (by simp [NoRecovery]) hrest
          exact absurd hmem (hdeadline.append hnone q)

theorem modeCalls_recover {e : TrapEvent} {before after : List ModeCall} {q : Sys}
    (h : modeCalls P s e = before ++ .recover q :: after) :
    ∃ u args, enterHandler P s e = .ok (u, args) ∧
      RecoversAt P u e.mtime e.mcause before q := by
  have hmem : .recover q ∈ modeCalls P s e := by simp [h]
  rw [modeCalls] at h hmem
  cases hu : enterHandler P s e with
  | error halt =>
    simp only [hu, afterOk_error] at hmem
    exact absurd hmem (noRecovery_nil q)
  | ok entered =>
    obtain ⟨u, args⟩ := entered
    refine ⟨u, args, rfl, ?_⟩
    simp only [hu, afterOk_ok, handlerCalls, (entered_args hu).mcause] at h hmem
    split at hmem
    · rename_i hint
      rw [if_pos hint] at h
      split at hmem
      · rename_i htimer
        rw [if_pos htimer] at h
        exact timerCalls_recover ⟨hint, htimer⟩ h
      · exact absurd hmem (noRecovery_nil q)
    · exact absurd hmem (exceptionCalls_noRecovery _ _ _ _ _ _ _ q)

/-! ## Runs -/

theorem run_accounts {es : List TrapEvent} (h : Accounts calls s)
    (hrun : run (kernel P) s es = .ok u) : Accounts (calls ++ history P s es) u := by
  induction es generalizing s calls with
  | nil =>
    cases hrun
    rw [history, List.append_nil]
    exact h
  | cons e es ih =>
    obtain ⟨v, hv, hu⟩ := run_cons_ok.mp hrun
    have hv' : trap P s e = .ok v := hv
    rw [history, hv', ← List.append_assoc]
    exact ih (trap_accounts h hv') hu

theorem initial_accounts (h : (kernel P).Initial s) : Accounts [] s := by
  obtain ⟨q, best, hs⟩ := initial_started h
  have hflag : s.degraded = false := by
    obtain ⟨pmp, rfl⟩ := hs.state
    exact hs.booted.degraded
  refine ⟨hflag, ?_, fun hd => ?_, fun d hd => ?_⟩
  · rw [(initial_counters h).1.blackbox]
    decide
  · rw [hflag] at hd
    cases hd
  · cases hd

/-- From `true` to `false` there is a recovery. -/
theorem recovers_of_flag {calls' : List ModeCall} (h : calls'.foldl flagAfter true = false) :
    ∃ before q after, calls' = before ++ .recover q :: after := by
  induction calls' with
  | nil => cases h
  | cons c rest ih =>
    cases c with
    | recover q => exact ⟨[], q, rest, rfl⟩
    | advanceTick =>
      obtain ⟨before, q, after, rfl⟩ := ih h
      exact ⟨.advanceTick :: before, q, after, rfl⟩
    | degradeSystem =>
      obtain ⟨before, q, after, rfl⟩ := ih h
      exact ⟨.degradeSystem :: before, q, after, rfl⟩

theorem trap_recovers {e : TrapEvent} (h : Accounts calls s) (hp : trap P s e = .ok u)
    (hs : s.degraded = true) (hu : u.degraded = false) :
    ∃ before q after, modeCalls P s e = before ++ .recover q :: after := by
  have hafter := (trap_accounts h hp).flag
  rw [List.foldl_append, ← h.flag, hs, hu] at hafter
  exact recovers_of_flag hafter.symm

theorem recoversAt_accounts {mtime mcause : ℕ} {before : List ModeCall} {q : Sys}
    (h : Accounts calls s) (hr : RecoversAt P s mtime mcause before q) :
    Accounts (calls ++ before) q := by
  obtain ⟨v, hv, rfl⟩ := hr.deadline
  rw [hr.calls, ← List.append_assoc]
  exact (accounts_advanceTick (deadlinePhase_accounts h hv)).kept ⟨rfl, rfl, rfl⟩

theorem recoversAt_evolves {mtime mcause : ℕ} {before : List ModeCall} {q : Sys}
    (hc : s.current.state ≠ .dead) (hr : RecoversAt P s mtime mcause before q) : Evolves s q := by
  obtain ⟨v, hv, rfl⟩ := hr.deadline
  refine (deadlinePhase_evolves hc hv).1.trans (Evolves.trans ?_ (periodPhase_evolves _))
  exact evolves_of_states rfl rfl (fun _ => rfl) (fun _ => rfl) rfl (.refl _ _)

/-- The guards of a recovery. -/
theorem recovers_iff (s : Sys) : recovers s = true ↔ s.degraded = true ∧ cooldownOver s = true ∧
    ∀ i, i.val < s.taskCount → (s.tasks i).dal < 2 → (s.tasks i).state ≠ .isolated := by
  have hhealthy : allHealthy s = true ↔
      ∀ i, i.val < s.taskCount → (s.tasks i).dal < 2 → (s.tasks i).state ≠ .isolated := by
    simp only [allHealthy, List.all_eq_true, List.mem_finRange, true_implies, Bool.not_eq_true',
      Bool.and_eq_false_iff, decide_eq_false_iff_not, beq_eq_false_iff_ne]
    constructor
    · intro h i hi hdal
      rcases h i with (hn | hn) | hn
      · exact absurd hi hn
      · exact absurd hdal hn
      · exact hn
    · intro h i
      by_cases hi : i.val < s.taskCount
      · by_cases hdal : (s.tasks i).dal < 2
        · exact Or.inr (h i hi hdal)
        · exact Or.inl (Or.inr hdal)
      · exact Or.inl (Or.inl hi)
  rw [recovers, Bool.and_eq_true, Bool.and_eq_true, hhealthy, and_assoc]

/-- A DAL-A/B task is isolated. -/
def CriticalIsolated (s : Sys) : Prop :=
  ∃ i, i.val < s.taskCount ∧ (s.tasks i).dal < 2 ∧ (s.tasks i).state = .isolated

theorem criticalIsolated_noRecovery {e : TrapEvent} (hi : TaskInv s) (h : CriticalIsolated s) :
    NoRecovery (modeCalls P s e) := by
  intro q hq
  obtain ⟨before, after, hsplit⟩ := List.append_of_mem hq
  obtain ⟨u, args, hu, hr⟩ := modeCalls_recover hsplit
  have hin := entered_sameKernel hu
  have hev := recoversAt_evolves (taskInv_sameKernel hin hi).currentAlive hr
  obtain ⟨i, hlt, hdal, hiso⟩ := h
  refine ((recovers_iff q).mp hr.recovers).2.2 i ?_ ?_ ?_
  · rw [hev.taskCount, hin.taskCount]
    exact hlt
  · rw [config_dal (hev.config i), hin.tasks]
    exact hdal
  · apply hev.isolated
    rw [hin.tasks]
    exact hiso

theorem criticalIsolated_trap {e : TrapEvent} (hi : TaskInv s) (hs : trap P s e = .ok u)
    (h : CriticalIsolated s) : CriticalIsolated u := by
  obtain ⟨i, -, hdal, hiso⟩ := h
  have hkept : (u.tasks i).state = .isolated := isolationKept_trap hi hs i hiso
  have halive : (u.tasks i).state ≠ .dead := by simp [hkept]
  have hconfigured : Configured (fun j t => j = i → t.dal < 2) s := by
    rintro j - rfl
    exact hdal
  refine ⟨i, ((taskInv_trap hi hs).created i halive).1, ?_, hkept⟩
  exact configured_trap (fun _ _ => Iff.rfl) hi hconfigured hs i halive rfl

theorem criticalIsolated_stays {es : List TrapEvent} (hr : Reachable (kernel P) anyStep s)
    (h : Accounts calls s) (hd : s.degraded = true) (hc : CriticalIsolated s) :
    NoRecovery (history P s es) ∧ ∀ v, run (kernel P) s es = .ok v → v.degraded = true := by
  induction es generalizing s calls with
  | nil =>
    refine ⟨noRecovery_nil, fun v hv => ?_⟩
    cases hv
    exact hd
  | cons e es ih =>
    have hi := reachable_taskInv hr
    have hnone := criticalIsolated_noRecovery (P := P) (e := e) hi hc
    have hnext : ∀ u, trap P s e = .ok u →
        NoRecovery (history P u es) ∧ ∀ v, run (kernel P) u es = .ok v → v.degraded = true := by
      intro u hu
      have hdu : u.degraded = true := by
        by_contra hfalse
        obtain ⟨before, q, after, hsplit⟩ := trap_recovers h hu hd (by simpa using hfalse)
        exact hnone q (by simp [hsplit])
      exact ih (hr.next trivial hu) (trap_accounts h hu) hdu (criticalIsolated_trap hi hu hc)
    refine ⟨?_, fun v hv => ?_⟩
    · rw [history]
      refine hnone.append ?_
      cases hu : trap P s e with
      | error halt => exact noRecovery_nil
      | ok u => exact (hnext u hu).1
    · obtain ⟨u, hu, hv⟩ := run_cons_ok.mp hv
      exact (hnext u hu).2 v hv

/-- The flag falls at a recovery only. A recovery happens in a tick, with no DAL-A/B task isolated
and a hundred ticks or more after the most recent `degrade_system`; once such a task is isolated
in degraded mode there is none for the rest of the run. -/
theorem recovery_guarded {s₀ : Sys} {es : List TrapEvent} (h0 : (kernel P).Initial s₀)
    (hrun : run (kernel P) s₀ es = .ok s) :
    (∀ e v, trap P s e = .ok v → s.degraded = true → v.degraded = false →
      ∃ before q after, modeCalls P s e = before ++ .recover q :: after) ∧
    (∀ e before q after, modeCalls P s e = before ++ .recover q :: after →
      IsTimer e.mcause ∧
      (∀ i, i.val < q.taskCount → (q.tasks i).dal < 2 → (q.tasks i).state ≠ .isolated) ∧
      ∃ d, ticksSinceDegrade (history P s₀ es ++ before) = some d ∧ 100 ≤ d) ∧
    (s.degraded = true → CriticalIsolated s → ∀ fs, NoRecovery (history P s fs) ∧
      ∀ v, run (kernel P) s fs = .ok v → v.degraded = true) := by
  have haccounts : Accounts (history P s₀ es) s := run_accounts (initial_accounts h0) hrun
  have hreachable : Reachable (kernel P) anyStep s := ⟨s₀, h0, run_anyStep hrun⟩
  refine ⟨fun e v hv hs hf => trap_recovers haccounts hv hs hf, fun e before q after hsplit => ?_,
    fun hd hc fs => criticalIsolated_stays hreachable haccounts hd hc⟩
  obtain ⟨u, args, hu, hr⟩ := modeCalls_recover hsplit
  obtain ⟨hdegraded, hcooldown, hhealthy⟩ := (recovers_iff q).mp hr.recovers
  have hq := recoversAt_accounts (haccounts.kept (enterHandler_clockKept hu)) hr
  obtain ⟨d, hd⟩ := hq.known hdegraded
  exact ⟨hr.timer, hhealthy, d, hd, cooldownOver_elapsed hq hd hcooldown⟩

end

/-- One task with an ample budget: it yields too early, then yields in time until the cooldown is
nearly over. -/
def cooldownEvents : List TrapEvent :=
  earlyYield :: (List.replicate 50 tick ++ earlyYield :: List.replicate 49 tick)

set_option maxRecDepth 10000 in
theorem recovery_after_cooldown : ∃ s₀ s v, (kernel referencePlatform).Initial s₀ ∧
    run (kernel referencePlatform) s₀ cooldownEvents = .ok s ∧
    trap referencePlatform s tick = .ok v ∧ s.degraded = true ∧ v.degraded = false ∧
    ∃ before q after d, modeCalls referencePlatform s tick = before ++ .recover q :: after ∧
      ticksSinceDegrade (history referencePlatform s₀ cooldownEvents ++ before) = some d ∧
      100 ≤ d := by
  obtain ⟨s₀, hs₀, ht⟩ := endsWith_iff.mp (show endsWith
    (boot referencePlatform resetHart 0 (fun _ => 0) [legacyTask 4 1 4000000000 10])
    (fun s₀ => endsWith (run (kernel referencePlatform) s₀ cooldownEvents) fun s =>
      s.degraded && endsWith (trap referencePlatform s tick) fun v => !v.degraded) = true
    by decide +kernel)
  obtain ⟨s, hs, ht⟩ := endsWith_iff.mp ht
  obtain ⟨hdegraded, ht⟩ := (Bool.and_eq_true _ _).mp ht
  obtain ⟨v, hv, hrecovered⟩ := endsWith_iff.mp ht
  rw [Bool.not_eq_true'] at hrecovered
  have h0 : (kernel referencePlatform).Initial s₀ := ⟨_, _, _, _, hs₀⟩
  have hguard := recovery_guarded h0 hs
  obtain ⟨before, q, after, hsplit⟩ := hguard.1 tick v hv hdegraded hrecovered
  obtain ⟨-, -, d, hd, hcooldown⟩ := hguard.2.1 tick before q after hsplit
  exact ⟨s₀, s, v, h0, hs, hv, hdegraded, hrecovered, before, q, after, d, hsplit, hd, hcooldown⟩

end KernelRecovery
