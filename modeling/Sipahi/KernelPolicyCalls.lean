import Sipahi.KernelDegradation
import Sipahi.KernelPolicyLadder

/-!
# The policy decisions of a trap

Every call of `apply_policy` that a trap makes, in order and with its answer, also when the trap
halts the system. Along a run they form one run of the policy engine.
-/
namespace KernelPolicyCalls

open KernelTypes KernelPolicy KernelState KernelTrapFrame KernelScheduler KernelSyscall KernelTrap
open KernelHandlers KernelEvolution KernelSelection KernelBoot KernelReference KernelDegradation
open KernelPolicyLadder RiscvHart GuardedExecution

/-! ## The decisions -/

/-- What follows when the call before it returns. -/
def onOk {α β : Type} (x : Except Halt α) (f : α → List β) : List β :=
  match x with
  | .ok a => f a
  | .error _ => []

/-- One call of `apply_policy`. -/
def consulted (s : Sys) (taskId : ℕ) (event : PolicyEvent) (dal : ℕ) : Decision :=
  ⟨⟨taskId, event, dal⟩, (consultPolicy s taskId event dal).1⟩

def isolateDecisions (s : Sys) (id : TaskIndex) : List Decision :=
  let s := markIsolated s id
  if 2 ≤ isolatedCount s then
    [consulted (s.log .policyShutdown systemTaskId []) systemTaskId .multiModuleCrash 0]
  else []

def actionDecisions (s : Sys) (id : TaskIndex) : FailureMode → List Decision
  | .isolate => isolateDecisions (s.log .policyIsolate (s.tasks id).id []) id
  | .restart | .degrade | .failover | .alert | .shutdown => []

def respondDecisions (s : Sys) (id : TaskIndex) (taskId : ℕ) (event : PolicyEvent) (dal : ℕ) :
    List Decision :=
  let (mode, u) := consultPolicy s taskId event dal
  consulted s taskId event dal :: actionDecisions u id mode

def deadlineDecisions (s : Sys) (mtime : ℕ) : List Decision :=
  let u := armNextTick s mtime
  if clockOverflows s mtime then []
  else if deadlineMissed s mtime then
    respondDecisions (u.log .deadlineMiss u.currentTask.val []) u.currentTask u.currentTask.val
      .deadlineMiss u.current.dal
  else []

def integrityDecisions (s : Sys) : List Decision :=
  if s.pmp.verifyPmpIntegrity then []
  else [consulted (s.log .pmpFail systemTaskId []) systemTaskId .pmpIntegrityFail 0]

def watchdogTaskDecisions (s : Sys) (w : TaskIndex) : List Decision :=
  if w.val < s.taskCount then
    let t := s.tasks w
    if watchdogTimesOut t then
      respondDecisions ((s.setTask w (watchdogCount t)).log .watchdogTimeout t.id []) w t.id
        .watchdogTimeout t.dal
    else []
  else []

def watchdogDecisions (P : Platform) : Sys → List TaskIndex → List Decision
  | _, [] => []
  | s, w :: ws =>
    watchdogTaskDecisions s w ++ onOk (watchdogTask P s w) fun u => watchdogDecisions P u ws

def budgetDecisions (s : Sys) (old : TaskIndex) : List Decision :=
  let t := s.tasks old
  if budgetExhausts t then
    respondDecisions ((s.setTask old (chargeTick t)).log .budgetExhausted t.id
      [UInt8.ofNat t.id, UInt8.ofNat t.dal]) old t.id .budgetExhausted t.dal
  else []

def accountingDecisions (P : Platform) (s : Sys) (old : TaskIndex) : List Decision :=
  watchdogDecisions P s (List.finRange maxTasks) ++
    onOk (watchdogPhase P s) fun u => budgetDecisions u old

def tickDecisions (P : Platform) (s : Sys) : List Decision :=
  let u := { s with blackbox := s.blackbox.advanceTick }
  integrityDecisions u ++ onOk (pmpIntegrityPhase u) fun v =>
    accountingDecisions P (tryRecoverFromDegrade (periodPhase v)) s.currentTask

def timerDecisions (P : Platform) (s : Sys) (mtime : ℕ) : List Decision :=
  deadlineDecisions s mtime ++ onOk (deadlinePhase P s mtime) fun u =>
    if u.taskCount = 0 then [] else tickDecisions P u

def recordCapDecisions (s : Sys) (ok : Bool) : List Decision :=
  let caller := s.currentTask
  if ok then []
  else if 3 ≤ saturatingAdd8 (s.capFailCount caller) 1 then
    respondDecisions ({ s with capFailCount := Function.update s.capFailCount caller 0 }.log
      .capViolation caller.val []) caller caller.val .capViolation s.current.dal
  else []

def capInvokeDecisions (P : Platform) (s : Sys) (cap resource action : ℕ) : List Decision :=
  if u8Max < cap ∨ u16Max < resource ∨ u8Max < action then []
  else match capabilityGranted P s cap resource action with
    | none => []
    | some ok => recordCapDecisions s ok

def kickDecisions (s : Sys) : List Decision :=
  let t := s.current
  if s.currentTask.val < s.taskCount ∧ kickTooEarly t = true then
    respondDecisions (s.log .watchdogTimeout t.id []) s.currentTask t.id .watchdogTimeout t.dal
  else []

def syscallDecisions (P : Platform) (s : Sys) (syscallId arg0 arg1 arg2 : ℕ) : List Decision :=
  match syscallId with
  | 0 => capInvokeDecisions P s arg0 arg1 arg2
  | 3 => kickDecisions s
  | 5 => isolateDecisions s s.currentTask
  | _ => []

def dispatchDecisions (P : Platform) (s : Sys) (syscallId arg0 arg1 arg2 : ℕ) : List Decision :=
  if syscallCount ≤ syscallId then []
  else syscallDecisions P (incrementSyscallCount s) syscallId arg0 arg1 arg2

def taskFaultDecisions (s : Sys) : List Decision :=
  if s.currentTask.val < s.taskCount then
    respondDecisions s s.currentTask s.currentTask.val .taskFault s.current.dal
  else []

def accessFaultDecisions (P : Platform) (s : Sys) (faultAddr : ℕ) : List Decision :=
  if P.taskStacksStart ≤ faultAddr ∧ faultAddr < P.taskStacksEnd then
    respondDecisions s s.currentTask s.currentTask.val .stackOverflow s.current.dal
  else taskFaultDecisions s

def exceptionDecisions (P : Platform) (s : Sys) (mcause syscallId arg0 arg1 arg2 : ℕ) :
    List Decision :=
  match mcause with
  | 8 | 11 => onOk (verifyMppIsUserMode s mcause) fun _ =>
      dispatchDecisions P s syscallId arg0 arg1 arg2
  | 0 | 2 | 3 | 4 | 6 => taskFaultDecisions (s.log .policyIsolate systemTaskId [])
  | 5 | 7 => accessFaultDecisions P (s.log .pmpFail s.currentTask.val []) (s.hart.csrs .mtval)
  | _ => []

def handlerDecisions (P : Platform) (s : Sys) (mtime mcause syscallId arg0 arg1 arg2 : ℕ) :
    List Decision :=
  if mcause &&& interruptBit ≠ 0 then
    if mcause % interruptBit = 7 then timerDecisions P s mtime else []
  else exceptionDecisions P s mcause syscallId arg0 arg1 arg2

/-- All the policy decisions of the trap `e` taken in `s`. -/
def trapDecisions (P : Platform) (s : Sys) (e : TrapEvent) : List Decision :=
  onOk (enterHandler P s e) fun entered =>
    handlerDecisions P entered.1 e.mtime (entered.2 .a0) (entered.2 .a2) (entered.2 .a3)
      (entered.2 .a4) (entered.2 .a5)

/-- The decisions of a run, up to the trap that halts the system. -/
def decisionHistory (P : Platform) : Sys → List TrapEvent → List Decision
  | _, [] => []
  | s, e :: es => trapDecisions P s e ++ onOk (trap P s e) fun u => decisionHistory P u es

/-- The policy was asked about this event of the task. -/
def Asked (i : TaskIndex) (event : PolicyEvent) (ds : List Decision) : Prop :=
  ∃ d ∈ ds, d.call.taskId = i.val ∧ d.call.event = event

instance (i : TaskIndex) (event : PolicyEvent) (ds : List Decision) :
    Decidable (Asked i event ds) := inferInstanceAs (Decidable (∃ _ ∈ _, _))

/-! ## The decisions are those of the policy engine -/

/-- From the counters of `s` the engine gives these answers and ends with the counters of `u`. -/
structure Follows (s : Sys) (ds : List Decision) (u : Sys) : Prop where
  answered : decisions s.restartCounts (ds.map Decision.call) = ds
  counts : u.restartCounts = countsAfter s.restartCounts (ds.map Decision.call)

theorem Follows.silent {s u : Sys} (h : u.restartCounts = s.restartCounts) : Follows s [] u :=
  ⟨rfl, h⟩

theorem Follows.trans {s u v : Sys} {ds ds' : List Decision} (a : Follows s ds u)
    (b : Follows u ds' v) : Follows s (ds ++ ds') v := by
  constructor
  · rw [List.map_append, decisions_append, a.answered, ← a.counts, b.answered]
  · rw [List.map_append, countsAfter_append, ← a.counts, b.counts]

/-- The counters alone matter, at both ends. -/
theorem Follows.congr {s s' u u' : Sys} {ds : List Decision} (h : Follows s ds u)
    (hs : s'.restartCounts = s.restartCounts) (hu : u'.restartCounts = u.restartCounts) :
    Follows s' ds u' :=
  ⟨hs ▸ h.answered, by rw [hu, hs, h.counts]⟩

theorem consult_follows (s : Sys) (taskId : ℕ) (event : PolicyEvent) (dal : ℕ) :
    Follows s [consulted s taskId event dal] (consultPolicy s taskId event dal).2 :=
  ⟨rfl, rfl⟩

section

variable {P : Platform} {s u : Sys}

theorem isolateTask_follows {id : TaskIndex} (h : isolateTask s id = .ok u) :
    Follows s (isolateDecisions s id) u := by
  obtain ⟨rfl, hfew⟩ := isolateTask_ok h
  simp only [isolateDecisions]
  rw [if_neg (by omega)]
  apply Follows.silent
  obtain ⟨tasks, cache, hrest⟩ := (markIsolated_frame s id).rest
  rw [hrest]

theorem applyAction_follows {id : TaskIndex} {mode : FailureMode}
    (h : applyAction P s id mode = .ok u) : Follows s (actionDecisions s id mode) u := by
  cases mode with
  | restart =>
    cases h
    apply Follows.silent
    obtain ⟨hart, hrest⟩ := restartTask_rest P (s.log .taskRestart (s.tasks id).id []) id
    rw [hrest]
    rfl
  | isolate => exact (isolateTask_follows h).congr rfl rfl
  | degrade =>
    simp only [applyAction] at h
    split at h <;> cases h <;> exact .silent rfl
  | failover | alert =>
    cases h
    exact .silent rfl
  | shutdown => cases h

theorem respond_follows {id : TaskIndex} {taskId dal : ℕ} {event : PolicyEvent}
    (h : respond P s id taskId event dal = .ok u) :
    Follows s (respondDecisions s id taskId event dal) u := by
  have hact := applyAction_follows (s := (consultPolicy s taskId event dal).2) h
  exact (consult_follows s taskId event dal).trans hact

theorem deadlinePhase_follows {mtime : ℕ} (h : deadlinePhase P s mtime = .ok u) :
    Follows s (deadlineDecisions s mtime) u := by
  obtain ⟨hclock, h⟩ := deadlinePhase_ok.mp h
  simp only [answerDeadline] at h
  simp only [deadlineDecisions, hclock, Bool.false_eq_true, if_false]
  split at h
  · rename_i hmiss
    rw [if_pos hmiss]
    exact (respond_follows h).congr rfl rfl
  · rename_i hmet
    rw [if_neg hmet]
    cases h
    exact .silent rfl

theorem watchdogTask_follows {w : TaskIndex} (h : watchdogTask P s w = .ok u) :
    Follows s (watchdogTaskDecisions s w) u := by
  simp only [watchdogTask] at h
  simp only [watchdogTaskDecisions]
  split at h
  · rename_i hin
    rw [if_pos hin]
    split at h
    · rename_i hout
      rw [if_pos hout]
      obtain ⟨q, hq, hu⟩ := bind_eq_ok.mp h
      cases hu
      exact (respond_follows hq).congr rfl rfl
    · rename_i hlow
      rw [if_neg hlow]
      cases h
      exact .silent rfl
  · rename_i hout
    rw [if_neg hout]
    cases h
    exact .silent rfl

theorem watchdogRun_follows {ws : List TaskIndex} (h : run (watchdogLoop P) s ws = .ok u) :
    Follows s (watchdogDecisions P s ws) u := by
  induction ws generalizing s with
  | nil =>
    cases h
    exact .silent rfl
  | cons w ws ih =>
    obtain ⟨q, hq, hu⟩ := run_cons_ok.mp h
    have hq' : watchdogTask P s w = .ok q := hq
    rw [watchdogDecisions, hq']
    exact (watchdogTask_follows hq').trans (ih hu)

theorem budgetPhase_follows {old : TaskIndex} (h : budgetPhase P s old = .ok u) :
    Follows s (budgetDecisions s old) u := by
  simp only [budgetPhase] at h
  simp only [budgetDecisions]
  split at h
  · split at h
    · rename_i hout
      rw [if_pos hout]
      exact (respond_follows h).congr rfl rfl
    · rename_i hleft
      rw [if_neg hleft]
      cases h
      exact .silent rfl
  · rename_i hoff
    rw [if_neg (by simp [budgetExhausts, hoff])]
    cases h
    exact .silent rfl

theorem pmpIntegrityPhase_follows (h : pmpIntegrityPhase s = .ok u) :
    Follows s (integrityDecisions s) u := by
  have hu := pmpIntegrityPhase_ok h
  rw [pmpIntegrityPhase] at h
  split at h
  · rename_i hok
    rw [integrityDecisions, if_pos hok]
    exact .silent (by rw [hu])
  · simp [consultPolicy, applySystemAction, PolicyEvent.code, decideAction] at h

theorem tryRecoverFromDegrade_restartCounts (s : Sys) :
    (tryRecoverFromDegrade s).restartCounts = s.restartCounts := by
  rw [tryRecoverFromDegrade]
  split <;> rfl

theorem tickPhases_follows (h : tickPhases P s = .ok u) : Follows s (tickDecisions P s) u := by
  rw [tickPhases] at h
  obtain ⟨q, hq, h⟩ := bind_eq_ok.mp h
  obtain ⟨v, hv, hu⟩ := bind_eq_ok.mp h
  rw [tickBeforeWatchdog] at hq
  obtain ⟨x, hx, hq⟩ := bind_eq_ok.mp hq
  cases hq
  simp only [tickDecisions, hx, onOk, accountingDecisions, hv]
  have hstart : Follows s (integrityDecisions { s with blackbox := s.blackbox.advanceTick })
      (tryRecoverFromDegrade (periodPhase x)) :=
    (pmpIntegrityPhase_follows hx).congr rfl (tryRecoverFromDegrade_restartCounts _)
  exact hstart.trans ((watchdogRun_follows hv).trans (budgetPhase_follows hu))

theorem select_restartCounts {old : TaskIndex} {flow : Flow}
    (h : doPrioritySelectAndSwitch P s old = .ok (u, flow)) :
    u.restartCounts = s.restartCounts := by
  rcases select_cases h with ⟨-, rfl, -⟩ | ⟨next, -, hs⟩
  · rfl
  · obtain ⟨pmp, rfl⟩ := hs.state
    rfl

theorem scheduleYield_restartCounts {flow : Flow} (h : scheduleYield P s = .ok (u, flow)) :
    u.restartCounts = s.restartCounts := by
  rw [scheduleYield] at h
  split at h
  · cases h
    rfl
  · exact select_restartCounts h

theorem timerInterrupt_follows {mtime : ℕ} {r : Option ℕ}
    (h : timerInterrupt P s mtime = .ok (u, r)) : Follows s (timerDecisions P s mtime) u := by
  rw [timerInterrupt] at h
  obtain ⟨v, hv, h⟩ := bind_eq_ok.mp h
  obtain ⟨⟨w, flow⟩, hw, h⟩ := bind_eq_ok.mp h
  obtain ⟨rfl, -⟩ := answerZeroUnlessStarted_eq (Except.ok.inj h)
  rw [timerDecisions, hv]
  refine (deadlinePhase_follows hv).trans ?_
  rw [scheduleTimerTick] at hw
  simp only [onOk]
  split at hw
  · rename_i hnone
    rw [if_pos hnone]
    cases hw
    exact .silent rfl
  · rename_i hsome
    rw [if_neg hsome]
    obtain ⟨q, hq, hw⟩ := bind_eq_ok.mp hw
    exact (tickPhases_follows hq).congr rfl (select_restartCounts hw)

theorem recordCapResult_follows {ok : Bool} (h : recordCapResult P s ok = .ok u) :
    Follows s (recordCapDecisions s ok) u := by
  simp only [recordCapResult] at h
  simp only [recordCapDecisions]
  split at h
  · rename_i hok
    rw [if_pos hok]
    cases h
    exact .silent rfl
  · rename_i hfail
    rw [if_neg hfail]
    split at h
    · rename_i hthree
      rw [if_pos hthree]
      exact (respond_follows h).congr rfl rfl
    · rename_i hfew
      rw [if_neg hfew]
      cases h
      exact .silent rfl

theorem sysCapInvoke_follows {cap resource action r : ℕ}
    (h : sysCapInvoke P s cap resource action = .ok (u, r)) :
    Follows s (capInvokeDecisions P s cap resource action) u := by
  rw [sysCapInvoke] at h
  rw [capInvokeDecisions]
  split at h
  · rename_i hbad
    rw [if_pos hbad]
    cases h
    exact .silent rfl
  · rename_i hgood
    rw [if_neg hgood]
    cases hgranted : capabilityGranted P s cap resource action with
    | none =>
      rw [hgranted] at h
      cases h
      exact .silent rfl
    | some ok =>
      rw [hgranted] at h
      obtain ⟨q, hq, h⟩ := bind_eq_ok.mp h
      cases h
      exact recordCapResult_follows hq

theorem watchdogKick_follows (h : watchdogKick P s = .ok u) : Follows s (kickDecisions s) u := by
  rw [watchdogKick] at h
  simp only [kickDecisions]
  split at h
  · rename_i hin
    obtain ⟨q, hq, hu⟩ := bind_eq_ok.mp h
    cases hu
    simp only [checkKickWindow] at hq
    split at hq
    · rename_i hearly
      rw [if_pos ⟨hin, hearly⟩]
      exact (respond_follows hq).congr rfl rfl
    · rename_i hlate
      rw [if_neg fun hk => hlate hk.2]
      cases hq
      exact .silent rfl
  · rename_i hout
    rw [if_neg fun hk => hout hk.1]
    cases h
    exact .silent rfl

theorem syscallTable_follows {syscallId arg0 arg1 arg2 : ℕ} {r : Option ℕ}
    (h : syscallTable P s syscallId arg0 arg1 arg2 = .ok (u, r)) :
    Follows s (syscallDecisions P s syscallId arg0 arg1 arg2) u := by
  simp only [syscallTable] at h
  split at h
  · obtain ⟨⟨v, x⟩, hv, hu⟩ := bind_eq_ok.mp h
    cases hu
    exact sysCapInvoke_follows hv
  · cases h
    exact .silent ((sysIpcSend_frame ..).restartCounts)
  · cases h
    exact .silent ((sysIpcRecv_frame ..).restartCounts)
  · obtain ⟨q, hq, h⟩ := bind_eq_ok.mp h
    obtain ⟨⟨v, flow⟩, hv, hu⟩ := bind_eq_ok.mp h
    obtain ⟨rfl, -⟩ := okUnlessStarted_eq (Except.ok.inj hu)
    exact (watchdogKick_follows hq).congr rfl (scheduleYield_restartCounts hv)
  · cases h
    exact .silent rfl
  · obtain ⟨q, hq, h⟩ := bind_eq_ok.mp h
    obtain ⟨⟨v, flow⟩, hv, hu⟩ := bind_eq_ok.mp h
    obtain ⟨rfl, -⟩ := okUnlessStarted_eq (Except.ok.inj hu)
    exact (isolateTask_follows hq).congr rfl (scheduleYield_restartCounts hv)
  · cases h

theorem dispatch_follows {syscallId arg0 arg1 arg2 : ℕ} {r : Option ℕ}
    (h : dispatch P s syscallId arg0 arg1 arg2 = .ok (u, r)) :
    Follows s (dispatchDecisions P s syscallId arg0 arg1 arg2) u := by
  rw [dispatch] at h
  rw [dispatchDecisions]
  split at h
  · rename_i hbad
    rw [if_pos hbad]
    cases h
    exact .silent rfl
  · rename_i hgood
    rw [if_neg hgood]
    obtain ⟨⟨v, x⟩, hv, hu⟩ := bind_eq_ok.mp h
    cases hu
    exact (syscallTable_follows hv).congr (incrementSyscallCount_frame s).restartCounts.symm rfl

theorem handleTaskFault_follows (h : handleTaskFault P s = .ok u) :
    Follows s (taskFaultDecisions s) u := by
  rw [handleTaskFault] at h
  rw [taskFaultDecisions]
  split at h
  · rename_i hin
    rw [if_pos hin]
    exact respond_follows h
  · rename_i hout
    rw [if_neg hout]
    cases h
    exact .silent rfl

theorem respondToAccessFault_follows {faultAddr : ℕ}
    (h : respondToAccessFault P s faultAddr = .ok u) :
    Follows s (accessFaultDecisions P s faultAddr) u := by
  rw [respondToAccessFault] at h
  rw [accessFaultDecisions]
  split at h
  · rename_i hin
    rw [if_pos hin]
    exact respond_follows h
  · rename_i hout
    rw [if_neg hout]
    exact handleTaskFault_follows h

theorem exceptionTrap_follows {mcause syscallId arg0 arg1 arg2 : ℕ} {r : Option ℕ}
    (h : exceptionTrap P s mcause syscallId arg0 arg1 arg2 = .ok (u, r)) :
    Follows s (exceptionDecisions P s mcause syscallId arg0 arg1 arg2) u := by
  simp only [exceptionTrap] at h
  split at h
  case h_1 | h_2 =>
    obtain ⟨x, hx, h⟩ := bind_eq_ok.mp h
    simp only [exceptionDecisions, hx, onOk]
    exact dispatch_follows h
  case h_3 | h_4 | h_5 | h_6 | h_7 =>
    obtain ⟨q, hq, h⟩ := bind_eq_ok.mp h
    cases h
    exact (handleTaskFault_follows hq).congr rfl rfl
  case h_8 | h_9 =>
    obtain ⟨q, hq, h⟩ := bind_eq_ok.mp h
    cases h
    exact (respondToAccessFault_follows hq).congr rfl rfl
  all_goals cases h

theorem trapHandler_follows {mtime mcause syscallId arg0 arg1 arg2 : ℕ} {r : Option ℕ}
    (h : trapHandler P s mtime mcause syscallId arg0 arg1 arg2 = .ok (u, r)) :
    Follows s (handlerDecisions P s mtime mcause syscallId arg0 arg1 arg2) u := by
  rw [trapHandler] at h
  rw [handlerDecisions]
  split at h
  · rename_i hint
    rw [if_pos hint]
    split at h
    · rename_i htimer
      rw [if_pos htimer]
      exact timerInterrupt_follows h
    · rename_i hother
      rw [if_neg hother]
      cases h
      exact .silent rfl
  · rename_i hexception
    rw [if_neg hexception]
    exact exceptionTrap_follows h

theorem trap_follows {e : TrapEvent} (h : trap P s e = .ok u) :
    Follows s (trapDecisions P s e) u := by
  rw [trap] at h
  obtain ⟨⟨v, args⟩, hv, h⟩ := bind_eq_ok.mp h
  obtain ⟨⟨w, r⟩, hw, h⟩ := bind_eq_ok.mp h
  cases h
  rw [trapDecisions, hv]
  obtain ⟨k, -, -, rfl⟩ := enterHandler_ok hv
  refine (trapHandler_follows hw).congr rfl ?_
  cases r <;> rfl

/-- The decisions of a run are those of the policy engine on the calls of the run. -/
theorem run_follows {es : List TrapEvent} (h : run (kernel P) s es = .ok u) :
    Follows s (decisionHistory P s es) u := by
  induction es generalizing s with
  | nil =>
    cases h
    exact .silent rfl
  | cons e es ih =>
    obtain ⟨v, hv, hu⟩ := run_cons_ok.mp h
    have hv' : trap P s e = .ok v := hv
    rw [decisionHistory, hv']
    exact (trap_follows hv').trans (ih hu)

/-- From boot on the counters are those of the policy engine as well. -/
theorem history_follows {s₀ : Sys} {es : List TrapEvent} (h0 : (kernel P).Initial s₀)
    (h : run (kernel P) s₀ es = .ok s) :
    decisionHistory P s₀ es =
        decisions noRestarts ((decisionHistory P s₀ es).map Decision.call) ∧
      s.restartCounts = countsAfter noRestarts ((decisionHistory P s₀ es).map Decision.call) := by
  have hf := run_follows h
  have hzero : s₀.restartCounts = noRestarts := (initial_counters h0).1.restartCounts
  rw [← hzero]
  exact ⟨hf.answered.symm, hf.counts⟩

/-- No run of the kernel restarts a task more than three times. -/
theorem kernel_restarts_bounded {s₀ : Sys} {es : List TrapEvent} (h0 : (kernel P).Initial s₀)
    (h : run (kernel P) s₀ es = .ok s) (i : TaskIndex) :
    s.restartCounts i ≤ maxRestartFault ∧
      (decisionHistory P s₀ es).countP (restartOf i) = s.restartCounts i := by
  obtain ⟨hanswers, hcounts⟩ := history_follows h0 h
  have hzero : noRestarts i ≤ maxRestartFault := Nat.zero_le _
  rw [hcounts]
  refine ⟨countsAfter_le hzero, ?_⟩
  rw [countsAfter_eq hzero, ← hanswers]
  exact (Nat.zero_add _).symm

/-- The watchdog ladder, in every run of the policy engine and in every run of the kernel. -/
theorem watchdog_ladder_iff (i : TaskIndex) :
    (∀ calls : List PolicyCall,
      WatchdogLadder i (decisions noRestarts calls) ↔ OneTimeoutBeforeRestart i calls) ∧
    ∀ (P : Platform) (s₀ s : Sys) (es : List TrapEvent),
      (kernel P).Initial s₀ → run (kernel P) s₀ es = .ok s →
        (WatchdogLadder i (decisionHistory P s₀ es) ↔
          OneTimeoutBeforeRestart i ((decisionHistory P s₀ es).map Decision.call)) := by
  constructor
  · intro calls
    exact ladder_iff calls i
  · intro P s₀ s es h0 h
    rw [← ladder_iff, ← (history_follows h0 h).1]

/-- One early yield is within the ladder. -/
theorem one_timeout_in_ladder : ∃ s₀ s, (kernel referencePlatform).Initial s₀ ∧
    run (kernel referencePlatform) s₀ [earlyYield] = .ok s ∧
      WatchdogLadder 0 (decisionHistory referencePlatform s₀ [earlyYield]) := by
  obtain ⟨s₀, hs₀, ht⟩ := endsWith_iff.mp (show endsWith
    (boot referencePlatform resetHart 0 (fun _ => 0) bootInit)
    (fun s₀ => endsWith (run (kernel referencePlatform) s₀ [earlyYield]) fun _ =>
      decide (OneTimeoutBeforeRestart 0
        ((decisionHistory referencePlatform s₀ [earlyYield]).map Decision.call))) = true
    by decide +kernel)
  obtain ⟨s, hs, ht⟩ := endsWith_iff.mp ht
  have h0 : (kernel referencePlatform).Initial s₀ := ⟨_, _, _, _, hs₀⟩
  exact ⟨s₀, s, h0, hs, ((watchdog_ladder_iff 0).2 referencePlatform s₀ s _ h0 hs).mpr
    (of_decide_eq_true ht)⟩

/-- Task 0 yields too early twice; both timeouts are answered with a failover. -/
theorem second_timeout_fails_over : ¬ ∀ (P : Platform) (s₀ s : Sys) (es : List TrapEvent)
    (i : TaskIndex), (kernel P).Initial s₀ → run (kernel P) s₀ es = .ok s →
      WatchdogLadder i (decisionHistory P s₀ es) := by
  intro h
  obtain ⟨s₀, hs₀, ht⟩ := endsWith_iff.mp (show endsWith
    (boot referencePlatform resetHart 0 (fun _ => 0) bootInit)
    (fun s₀ => endsWith (run (kernel referencePlatform) s₀ [earlyYield, earlyYield]) fun _ =>
      decide ((decisionHistory referencePlatform s₀ [earlyYield, earlyYield]).countP
        (failoverOf 0) = 2)) = true by decide +kernel)
  obtain ⟨s, hs, ht⟩ := endsWith_iff.mp ht
  have honce := (h referencePlatform s₀ s _ 0 ⟨_, _, _, _, hs₀⟩ hs).once
  rw [of_decide_eq_true ht] at honce
  exact absurd honce (by decide)

end

end KernelPolicyCalls
