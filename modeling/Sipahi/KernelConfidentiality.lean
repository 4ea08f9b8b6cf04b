import Sipahi.KernelIntegrity
import Sipahi.RelatedRuns

/-!
# What a sleeping task holds stays with it

The kernel reads the memory of the tasks in one place only, where a task sends a message. Whatever
else a trap does commutes with a change of that memory.
-/
namespace KernelConfidentiality

open KernelTypes KernelPolicy KernelIpcChannel KernelPmp KernelPmpAgreement KernelState
open KernelTrapFrame KernelScheduler KernelSyscall KernelTrap KernelHandlers KernelSelection
open KernelTaskInvariants KernelIpcSyscalls KernelStatics KernelMessages KernelSpatial
open KernelIntegrity KernelReference GuardedExecution RelatedRuns RiscvHart SntmAcceptance
open SntmIsolation SntmProfiles
open SntmManifest (Manifest TaskEntry RegionEntry Host validateAll sipahiToml_accepted)

/-! ## Functions that do not look -/

def withMem (m : ℕ → UInt8) (s : Sys) : Sys := { s with userMem := m }

def withMemFst {α : Type} (m : ℕ → UInt8) (r : Sys × α) : Sys × α := (withMem m r.1, r.2)

/-- The memory of the tasks neither decides the result nor is changed. -/
def Blind (f : Sys → Except Halt Sys) : Prop := ∀ m, Commutes (withMem m) (withMem m) f f

def BlindFst {α : Type} (f : Sys → Except Halt (Sys × α)) : Prop :=
  ∀ m, Commutes (withMem m) (withMemFst m) f f

section

variable (P : Platform) (id : TaskIndex)

theorem applySystemAction_blind (mode : FailureMode) : Blind (applySystemAction · mode) := by
  intro m s
  unfold applySystemAction
  split <;> rfl

theorem markIsolated_withMem (m : ℕ → UInt8) (s : Sys) :
    markIsolated (withMem m s) id = withMem m (markIsolated s id) := by
  unfold markIsolated
  change (if id.val < s.taskCount then _ else _) = _
  split <;> rfl

theorem isolateTask_blind : Blind (isolateTask · id) := by
  intro m s
  dsimp only [isolateTask]
  rw [markIsolated_withMem]
  change (if 2 ≤ isolatedCount (markIsolated s id) then _ else _) = _
  split
  · exact applySystemAction_blind _ m _
  · rfl

theorem restartTask_withMem (m : ℕ → UInt8) (s : Sys) :
    restartTask P (withMem m s) id = withMem m (restartTask P s id) := by
  unfold restartTask
  change (if id.val < s.taskCount then _ else _) = _
  split <;> rfl

theorem applyAction_blind (mode : FailureMode) : Blind (applyAction P · id mode) := by
  intro m s
  cases mode with
  | restart =>
    exact congrArg Except.ok (restartTask_withMem P id m (s.log .taskRestart (s.tasks id).id []))
  | isolate => exact isolateTask_blind id m (s.log .policyIsolate (s.tasks id).id [])
  | degrade =>
    dsimp only [applyAction]
    change (if s.degradeLogged then _ else _) = _
    split <;> rfl
  | failover | alert | shutdown => rfl

theorem respond_blind (taskId : ℕ) (event : PolicyEvent) (dal : ℕ) :
    Blind (respond P · id taskId event dal) := by
  intro m s
  exact applyAction_blind P id (consultPolicy s taskId event dal).1 m
    (consultPolicy s taskId event dal).2

theorem handleTaskFault_blind : Blind (handleTaskFault P) := by
  intro m s
  unfold handleTaskFault
  change (if s.currentTask.val < s.taskCount then _ else _) = _
  split
  · exact respond_blind P _ _ _ _ m s
  · rfl

/-! ## The tick -/

theorem pmpIntegrityPhase_blind : Blind pmpIntegrityPhase := by
  intro m s
  unfold pmpIntegrityPhase
  change (if s.pmp.verifyPmpIntegrity then _ else _) = _
  split
  · rfl
  · exact applySystemAction_blind _ m _

theorem tryRecoverFromDegrade_withMem (m : ℕ → UInt8) (s : Sys) :
    tryRecoverFromDegrade (withMem m s) = withMem m (tryRecoverFromDegrade s) := by
  unfold tryRecoverFromDegrade
  have hsame : recovers (withMem m s) = recovers s := rfl
  rw [hsame]
  split <;> rfl

theorem tickBeforeWatchdog_blind : Blind tickBeforeWatchdog := by
  intro m s
  refine (pmpIntegrityPhase_blind m).bind (l := withMem m) ?_ { s with
    blackbox := s.blackbox.advanceTick }
  intro u
  exact congrArg Except.ok (tryRecoverFromDegrade_withMem m (periodPhase u))

theorem watchdogTask_blind (w : TaskIndex) : Blind (watchdogTask P · w) := by
  intro m s
  dsimp only [watchdogTask]
  change (if w.val < s.taskCount then if watchdogTimesOut (s.tasks w) then _ else _ else _) = _
  split
  · split
    · refine (respond_blind P w _ _ _ m).bind (l := withMem m) (fun u => ?_)
        ((s.setTask w (watchdogCount (s.tasks w))).log .watchdogTimeout (s.tasks w).id [])
      rfl
    · rfl
  · rfl

theorem watchdogPhase_blind : Blind (watchdogPhase P) := fun m =>
  run_commutes (M := watchdogLoop P) (fun w => watchdogTask_blind P w m) (List.finRange maxTasks)

theorem budgetPhase_blind (old : TaskIndex) : Blind (budgetPhase P · old) := by
  intro m s
  dsimp only [budgetPhase]
  change (if budgetActive (s.tasks old) then if budgetExhausts (s.tasks old) then _ else _ else _) =
    _
  split
  · split
    · exact respond_blind P old _ _ _ m ((s.setTask old (chargeTick (s.tasks old))).log
        .budgetExhausted (s.tasks old).id
          [UInt8.ofNat (s.tasks old).id, UInt8.ofNat (s.tasks old).dal])
    · rfl
  · rfl

theorem tickPhases_blind : Blind (tickPhases P) := by
  intro m s
  exact (tickBeforeWatchdog_blind m).bind ((watchdogPhase_blind P m).bind
    (budgetPhase_blind P s.currentTask m)) s

theorem switchTo_blind (old next : TaskIndex) : BlindFst (switchTo P · old next) := by
  intro m s
  dsimp only [switchTo]
  change (loadTaskPmp P s.pmp (handOver s.tasks old next next) _ >>= fun pmp => _) = _
  cases loadTaskPmp P s.pmp (handOver s.tasks old next next)
    "[SCHED] is_sntm_native task with EMPTY PMP_PROFILES — manifest drift" with
  | error e => rfl
  | ok pmp =>
    change (if (switchContext P s.hart old next).pc = P.taskTrampoline then _
      else if (switchContext P s.hart old next).pc = P.switchReturn then _ else _) = Except.map _
        (if (switchContext P s.hart old next).pc = P.taskTrampoline then _
          else if (switchContext P s.hart old next).pc = P.switchReturn then _ else _)
    split
    · rfl
    · split <;> rfl

theorem doPrioritySelectAndSwitch_blind (old : TaskIndex) :
    BlindFst (doPrioritySelectAndSwitch P · old) := by
  intro m s
  dsimp only [doPrioritySelectAndSwitch]
  have hsame : switchTarget (withMem m s) old = switchTarget s old := rfl
  rw [hsame]
  split
  · rfl
  · exact switchTo_blind P old _ m s

theorem scheduleTimerTick_blind : BlindFst (scheduleTimerTick P) := by
  intro m s
  dsimp only [scheduleTimerTick]
  change (if s.taskCount = 0 then _ else _) = _
  split
  · rfl
  · exact (tickPhases_blind P m).bind (doPrioritySelectAndSwitch_blind P s.currentTask m) s

theorem scheduleYield_blind : BlindFst (scheduleYield P) := by
  intro m s
  dsimp only [scheduleYield]
  change (if s.taskCount = 0 then _ else _) = _
  split
  · rfl
  · exact doPrioritySelectAndSwitch_blind P s.currentTask m s

/-! ## System calls and traps -/

theorem watchdogKick_blind : Blind (watchdogKick P) := by
  intro m s
  dsimp only [watchdogKick]
  change (if s.currentTask.val < s.taskCount then checkKickWindow P (withMem m s) >>= fun u => _
    else _) = _
  have hcheck : Commutes (withMem m) (withMem m) (checkKickWindow P) (checkKickWindow P) := by
    intro s
    dsimp only [checkKickWindow]
    change (if kickTooEarly s.current then _ else _) = _
    split
    · exact respond_blind P _ _ _ _ m (s.log .watchdogTimeout s.current.id [])
    · rfl
  split
  · exact hcheck.bind (l := withMem m) (fun u => rfl) s
  · rfl

theorem incrementSyscallCount_withMem (m : ℕ → UInt8) (s : Sys) :
    incrementSyscallCount (withMem m s) = withMem m (incrementSyscallCount s) := by
  unfold incrementSyscallCount
  change (if s.currentTask.val < s.taskCount then _ else _) = _
  split <;> rfl

theorem incrementIpcSend_withMem (m : ℕ → UInt8) (s : Sys) :
    incrementIpcSend (withMem m s) = withMem m (incrementIpcSend s) := by
  unfold incrementIpcSend
  change (if s.currentTask.val < s.taskCount then _ else _) = _
  split <;> rfl

theorem recordCapResult_blind (ok : Bool) : Blind (recordCapResult P · ok) := by
  intro m s
  dsimp only [recordCapResult]
  cases ok with
  | true => rfl
  | false =>
    change (if 3 ≤ saturatingAdd8 (s.capFailCount s.currentTask) 1 then _ else _) = Except.map _
      (if 3 ≤ saturatingAdd8 (s.capFailCount s.currentTask) 1 then _ else _)
    split
    · exact respond_blind P _ _ _ _ m ({ s with
        capFailCount := Function.update s.capFailCount s.currentTask 0 }.log .capViolation
          s.currentTask.val [])
    · rfl

theorem sysCapInvoke_blind (cap resource action : ℕ) :
    BlindFst (sysCapInvoke P · cap resource action) := by
  intro m s
  dsimp only [sysCapInvoke]
  split
  · rfl
  · have hsame : capabilityGranted P (withMem m s) cap resource action =
        capabilityGranted P s cap resource action := rfl
    rw [hsame]
    split
    · rfl
    · rename_i ok _
      exact (recordCapResult_blind P ok m).bind (l := withMemFst m) (fun u => rfl) s

theorem sysYield_blind : BlindFst (sysYield P) := by
  intro m s
  refine (watchdogKick_blind P m).bind (l := withMemFst m) ?_ s
  intro u
  refine (scheduleYield_blind P m).bind (l := withMemFst m) ?_ u
  rintro ⟨v, flow⟩
  cases flow <;> rfl

theorem sysExit_blind : BlindFst (sysExit P) := by
  intro m s
  refine (isolateTask_blind s.currentTask m).bind (l := withMemFst m) ?_ s
  intro u
  refine (scheduleYield_blind P m).bind (l := withMemFst m) ?_ u
  rintro ⟨v, flow⟩
  cases flow <;> rfl

theorem timerInterrupt_blind (mtime : ℕ) : BlindFst (timerInterrupt P · mtime) := by
  intro m s
  have hdeadline : Commutes (withMem m) (withMem m) (deadlinePhase P · mtime)
      (deadlinePhase P · mtime) := by
    intro s
    dsimp only [deadlinePhase, answerDeadline]
    change (if clockOverflows s mtime then _ else if deadlineMissed s mtime then _ else _) = _
    split
    · rfl
    · split
      · exact respond_blind P _ _ _ _ m
          ((armNextTick s mtime).log .deadlineMiss s.currentTask.val [])
      · rfl
  refine hdeadline.bind (l := withMemFst m) ?_ s
  intro u
  refine (scheduleTimerTick_blind P m).bind (l := withMemFst m) ?_ u
  rintro ⟨v, flow⟩
  cases flow <;> rfl

theorem taskFaultTrap_blind : BlindFst (taskFaultTrap P) := by
  intro m s
  exact (handleTaskFault_blind P m).bind (l := withMemFst m) (fun u => rfl)
    (s.log .policyIsolate systemTaskId [])

theorem accessFaultTrap_blind : BlindFst (accessFaultTrap P) := by
  intro m s
  have hrespond : Commutes (withMem m) (withMem m)
      (respondToAccessFault P · (s.hart.csrs .mtval)) (respondToAccessFault P · (s.hart.csrs .mtval)) := by
    intro u
    dsimp only [respondToAccessFault]
    split
    · exact respond_blind P _ _ _ _ m u
    · exact handleTaskFault_blind P m u
  exact hrespond.bind (l := withMemFst m) (fun u => rfl) (s.log .pmpFail s.currentTask.val [])

end

/-! ## States that differ in a part of the memory -/

/-- The memories differ at most in `D`, and nothing else differs. -/
def Agrees (D : ℕ → Prop) (s s' : Sys) : Prop :=
  ∃ m, s' = withMem m s ∧ ∀ a, ¬ D a → m a = s.userMem a

def AgreesFst {α : Type} (D : ℕ → Prop) (r r' : Sys × α) : Prop := Agrees D r.1 r'.1 ∧ r'.2 = r.2

section

variable {D : ℕ → Prop} {P : Platform} {s s' : Sys} {α β : Type}

theorem Blind.related {f : Sys → Except Halt Sys} (hf : Blind f) (h : Agrees D s s') :
    Related (Agrees D) (f s) (f s') := by
  obtain ⟨m, rfl, hm⟩ := h
  have hkeep : f s = (f s).map (withMem s.userMem) := hf s.userMem s
  rw [hf m s]
  cases hfs : f s with
  | error e => exact .error e
  | ok u =>
    rw [hfs] at hkeep
    have hmem := congrArg Sys.userMem (Except.ok.inj hkeep)
    refine .ok ⟨m, rfl, fun a ha => ?_⟩
    rw [hm a ha, hmem]
    rfl

theorem BlindFst.related {f : Sys → Except Halt (Sys × α)} (hf : BlindFst f) (h : Agrees D s s') :
    Related (AgreesFst D) (f s) (f s') := by
  obtain ⟨m, rfl, hm⟩ := h
  have hkeep : f s = (f s).map (withMemFst s.userMem) := hf s.userMem s
  rw [hf m s]
  cases hfs : f s with
  | error e => exact .error e
  | ok r =>
    rw [hfs] at hkeep
    have hmem : r.1.userMem = s.userMem :=
      congrArg (fun r => r.1.userMem) (Except.ok.inj hkeep)
    refine .ok ⟨⟨m, rfl, fun a ha => ?_⟩, rfl⟩
    rw [hm a ha, hmem]

/-- The result of a handler after a step that touches no memory. -/
theorem related_mapFst {x y : Except Halt (Sys × α)} (h : Related (AgreesFst D) x y)
    (k : α → β) : Related (AgreesFst D) (x >>= fun r => .ok (r.1, k r.2))
      (y >>= fun r => .ok (r.1, k r.2)) := by
  refine h.bind ?_
  rintro r r' ⟨hr, heq⟩
  exact .ok ⟨hr, by rw [heq]⟩

/-- No byte of `D` is read as part of a message. -/
def Unread (D : ℕ → Prop) (P : Platform) (s : Sys) : Prop :=
  ∀ ptr a, MessageGranted P s .read ptr → ptr ≤ a → a < ptr + ipcMsgSize → ¬ D a

theorem readMessage_agrees {m m' : ℕ → UInt8} {ptr : ℕ}
    (h : ∀ a, ptr ≤ a → a < ptr + ipcMsgSize → m' a = m a) :
    readMessage m' ptr = readMessage m ptr := by
  rw [readMessage, readMessage, IpcMessage.mk.injEq]
  funext i
  exact h _ (Nat.le_add_right _ _) (Nat.add_lt_add_left i.isLt _)

/-- A message that is the same in both memories is sent alike. -/
theorem sysIpcSend_withMem {m : ℕ → UInt8} {channelId msgPtr : ℕ}
    (hmsg : MessageGranted P s .read msgPtr → readMessage m msgPtr = readMessage s.userMem msgPtr) :
    sysIpcSend P (withMem m s) channelId msgPtr = withMemFst m (sysIpcSend P s channelId msgPtr) := by
  unfold sysIpcSend
  split
  · rename_i hid
    change (if (!isValidUserPtr P s s.currentTask msgPtr ipcMsgSize .read) then _
      else if msgPtr % 8 ≠ 0 then _ else if (!s.pool.canSend ⟨channelId, hid⟩ s.currentTask.val) then
      _ else if (!checkIpcRate s) then _ else _) = _
    dsimp only
    split
    · rfl
    · rename_i hvalid
      split
      · rfl
      · split
        · rfl
        · split
          · rfl
          · have hgranted := isValidUserPtr_granted (by simpa using hvalid)
            have hmem : (withMem m (incrementIpcSend s)).userMem = m := rfl
            have hpool : (withMem m (incrementIpcSend s)).pool = (incrementIpcSend s).pool := rfl
            rw [incrementIpcSend_withMem, hmem, hpool, hmsg hgranted,
              (incrementIpcSend_counted s).userMem]
            cases ((incrementIpcSend s).pool.channels ⟨channelId, hid⟩).send
              (readMessage s.userMem msgPtr) <;> rfl
  · rfl

theorem sysIpcSend_agrees (hunread : Unread D P s) (h : Agrees D s s') (channelId msgPtr : ℕ) :
    AgreesFst D (sysIpcSend P s channelId msgPtr) (sysIpcSend P s' channelId msgPtr) := by
  obtain ⟨m, rfl, hm⟩ := h
  have hkeep : sysIpcSend P s channelId msgPtr =
      withMemFst s.userMem (sysIpcSend P s channelId msgPtr) :=
    sysIpcSend_withMem (m := s.userMem) fun _ => rfl
  have hmem : (sysIpcSend P s channelId msgPtr).1.userMem = s.userMem :=
    congrArg (fun r => r.1.userMem) hkeep
  have hmsg : MessageGranted P s .read msgPtr →
      readMessage m msgPtr = readMessage s.userMem msgPtr := by
    intro hgranted
    exact readMessage_agrees fun a hlo hhi => hm a (hunread msgPtr a hgranted hlo hhi)
  rw [sysIpcSend_withMem hmsg]
  refine ⟨⟨m, rfl, fun a ha => ?_⟩, rfl⟩
  rw [hm a ha, hmem]

theorem writeMessage_agrees {m m' : ℕ → UInt8} (h : ∀ a, ¬ D a → m' a = m a) (ptr : ℕ)
    (msg : IpcMessage) (a : ℕ) (ha : ¬ D a) :
    writeMessage m' ptr msg a = writeMessage m ptr msg a := by
  simp only [writeMessage]
  split
  · rfl
  · exact h a ha

/-- Both memories receive the same message at the same place. -/
theorem sysIpcRecv_agrees (h : Agrees D s s') (channelId bufPtr : ℕ) :
    AgreesFst D (sysIpcRecv P s channelId bufPtr) (sysIpcRecv P s' channelId bufPtr) := by
  obtain ⟨m, rfl, hm⟩ := h
  have hsame : ∀ r : ℕ, AgreesFst D (s, r) (withMem m s, r) := fun r => ⟨⟨m, rfl, hm⟩, rfl⟩
  unfold sysIpcRecv
  split
  · rename_i hid
    change AgreesFst D _ (if (!isValidUserPtr P s s.currentTask bufPtr ipcMsgSize .write) then _
      else if bufPtr % 8 ≠ 0 then _ else if (!s.pool.canRecv ⟨channelId, hid⟩ s.currentTask.val) then
      _ else _)
    dsimp only
    split
    · exact hsame _
    · split
      · exact hsame _
      · split
        · exact hsame _
        · have hpool : (withMem m s).pool = s.pool := rfl
          rw [hpool]
          cases (s.pool.channels ⟨channelId, hid⟩).recv with
          | none => exact hsame _
          | some r =>
            exact ⟨⟨writeMessage m bufPtr r.1, rfl, writeMessage_agrees hm bufPtr r.1⟩, rfl⟩
  · exact hsame _

theorem syscallTable_related (hunread : Unread D P s) (h : Agrees D s s')
    (syscallId arg0 arg1 arg2 : ℕ) : Related (AgreesFst D) (syscallTable P s syscallId arg0 arg1 arg2)
      (syscallTable P s' syscallId arg0 arg1 arg2) := by
  unfold syscallTable
  split
  · exact related_mapFst ((sysCapInvoke_blind P arg0 arg1 arg2).related h) some
  · obtain ⟨hs, hr⟩ := sysIpcSend_agrees hunread h arg0 arg1
    exact .ok ⟨hs, congrArg some hr⟩
  · obtain ⟨hs, hr⟩ := sysIpcRecv_agrees (P := P) h arg0 arg1
    exact .ok ⟨hs, congrArg some hr⟩
  · exact (sysYield_blind P).related h
  · obtain ⟨m, rfl, hm⟩ := h
    exact .ok ⟨⟨m, rfl, hm⟩, rfl⟩
  · exact (sysExit_blind P).related h
  · exact .error Halt.panic

theorem dispatch_related (hunread : Unread D P (incrementSyscallCount s)) (h : Agrees D s s')
    (syscallId arg0 arg1 arg2 : ℕ) : Related (AgreesFst D) (dispatch P s syscallId arg0 arg1 arg2)
      (dispatch P s' syscallId arg0 arg1 arg2) := by
  unfold dispatch
  split
  · exact .ok ⟨h, rfl⟩
  · obtain ⟨m, rfl, hm⟩ := h
    have hcounted : Agrees D (incrementSyscallCount s) (incrementSyscallCount (withMem m s)) := by
      refine ⟨m, incrementSyscallCount_withMem m s, fun a ha => ?_⟩
      rw [hm a ha, (countFrame_statics (incrementSyscallCount_counted s)).userMem]
    exact related_mapFst (syscallTable_related hunread hcounted syscallId arg0 arg1 arg2)
      (Option.map (hideKernelPointer P))

theorem exceptionTrap_related (hunread : Unread D P (incrementSyscallCount s)) (h : Agrees D s s')
    (mcause syscallId arg0 arg1 arg2 : ℕ) :
    Related (AgreesFst D) (exceptionTrap P s mcause syscallId arg0 arg1 arg2)
      (exceptionTrap P s' mcause syscallId arg0 arg1 arg2) := by
  have hecall : Related (AgreesFst D) (ecallTrap P s mcause syscallId arg0 arg1 arg2)
      (ecallTrap P s' mcause syscallId arg0 arg1 arg2) := by
    have hverify : verifyMppIsUserMode s' mcause = verifyMppIsUserMode s mcause := by
      obtain ⟨m, rfl, -⟩ := h
      rfl
    unfold ecallTrap
    rw [hverify]
    cases verifyMppIsUserMode s mcause with
    | error e => exact .error e
    | ok u => exact dispatch_related hunread h syscallId arg0 arg1 arg2
  unfold exceptionTrap
  split
  · exact hecall
  · exact hecall
  all_goals first
    | exact (taskFaultTrap_blind P).related h
    | exact (accessFaultTrap_blind P).related h
    | exact .error _

theorem trapHandler_related (hunread : Unread D P (incrementSyscallCount s)) (h : Agrees D s s')
    (mtime mcause syscallId arg0 arg1 arg2 : ℕ) :
    Related (AgreesFst D) (trapHandler P s mtime mcause syscallId arg0 arg1 arg2)
      (trapHandler P s' mtime mcause syscallId arg0 arg1 arg2) := by
  unfold trapHandler
  split
  · split
    · exact (timerInterrupt_blind P mtime).related h
    · exact .ok ⟨h, rfl⟩
  · exact exceptionTrap_related hunread h mcause syscallId arg0 arg1 arg2

/-- The same trap, taken in states whose memories agree and leaving memories that agree. -/
theorem trap_related {e : TrapEvent} (hunread : Unread D P s) {m : ℕ → UInt8}
    (hm : ∀ a, ¬ D a → m a = e.userMem a) (h : Agrees D s s') :
    Related (Agrees D) (trap P s e) (trap P s' { e with userMem := m }) := by
  have henter : enterHandler P s' { e with userMem := m } =
      (enterHandler P s e).map (withMemFst m) := by
    obtain ⟨m₀, rfl, -⟩ := h
    unfold enterHandler
    change trapEntry (takeTrap s e).hart >>= _ = _
    dsimp only
    cases trapEntry (takeTrap s e).hart <;> rfl
  unfold trap
  rw [henter]
  cases hentered : enterHandler P s e with
  | error x => exact .error x
  | ok r =>
    obtain ⟨u, args⟩ := r
    have hsame := counted_sameCaller hentered
    have hread : Unread D P (incrementSyscallCount u) := by
      intro ptr a hgranted
      have harrived : MessageGranted P (arrived s e) .read ptr := sameCaller_granted hsame hgranted
      exact hunread ptr a harrived
    have hu : Agrees D u (withMem m u) := by
      refine ⟨m, rfl, fun a ha => ?_⟩
      obtain ⟨k, -, -, rfl⟩ := enterHandler_ok hentered
      exact hm a ha
    refine (trapHandler_related hread hu e.mtime (args .a0) (args .a2) (args .a3) (args .a4)
      (args .a5)).bind ?_
    rintro ⟨v, x⟩ ⟨v', x'⟩ ⟨⟨m', hv, hm'⟩, hx⟩
    dsimp only at hv hx
    subst hv hx
    cases x' <;> exact .ok ⟨m', rfl, hm'⟩

end

/-! ## Tasks as programs -/

/-- What a task sees when it continues: its registers and the bytes it may read or execute. The
kernel's data, which it may read too, is kept out of its sight. -/
structure UserView where
  regs : Reg → ℕ
  pc : ℕ
  bytes : ℕ → Option UInt8

def userView (P : Platform) (s : Sys) : UserView where
  regs := s.hart.regs
  pc := s.hart.pc
  bytes := fun a =>
    if (permitted s.pmp .read a || permitted s.pmp .execute a) && !(kernelData P).holds a then
      some (s.userMem a)
    else none

/-- What happens up to the next trap: the registers and the cause, the clock, what the handler's
registers will hold, and the stores of the task. -/
structure UserStep where
  regs : Reg → ℕ
  pc : ℕ
  mcause : ℕ
  mtval : ℕ
  mtime : ℕ
  scratch : Reg → ℕ
  stores : ℕ → Option UInt8

/-- The tasks in the order in which they execute. They see nothing but their view and store nothing
into the kernel's data; the number of the trap stands for clocks and devices. -/
structure Program (P : Platform) where
  step : ℕ → UserView → UserStep
  spares : ∀ n view a, (kernelData P).holds a = true → (step n view).stores a = none

/-- The hart carries the step out; it drops the stores that the PMP refuses. -/
def carryOut (s : Sys) (step : UserStep) : TrapEvent where
  regs := step.regs
  pc := step.pc
  mcause := step.mcause
  mtval := step.mtval
  mtime := step.mtime
  scratch := step.scratch
  userMem := fun a =>
    if permitted s.pmp .write a then (step.stores a).getD (s.userMem a) else s.userMem a

def nextTrap {P : Platform} (program : Program P) (n : ℕ) (s : Sys) : TrapEvent :=
  carryOut s (program.step n (userView P s))

/-- The bytes of a slot outside the kernel's sections. -/
def Secret (P : Platform) (i : TaskIndex) (a : ℕ) : Prop := SlotHolds P i a ∧ sectionAt P a = none

section

variable {P : Platform} {m : Manifest} {s s' : Sys} {i : TaskIndex} {a : ℕ}

theorem secret_unpermitted (hm : Accepted m) (hprofiles : ProfilesOf P m) (hstacks : StacksApart P m)
    (hexact : ∀ i, ∀ r ∈ (P.pmpProfiles i).activeRegions, HardwareExact r)
    (h : Reachable (kernel P) anyStep s) (hsleeps : s.currentTask ≠ i) (ha : Secret P i a)
    (access : Access) : permitted s.pmp access a = false := by
  rw [← Bool.not_eq_true]
  intro hp
  have hholds := (permitted_allows h hexact ha.2 hp).holds
  exact hsleeps (slotHolds_unique hm hprofiles hstacks hholds ha.1)

theorem secret_unread (hm : Accepted m) (hprofiles : ProfilesOf P m) (hstacks : StacksApart P m)
    (h : Reachable (kernel P) anyStep s) (hsleeps : s.currentTask ≠ i) :
    Unread (Secret P i) P s := by
  intro ptr a hgranted hlo hhi ha
  have hholds := (messageGranted_allows h hgranted hlo hhi).holds
  exact hsleeps (slotHolds_unique hm hprofiles hstacks hholds ha.1)

/-- Whoever may not read `D` sees the same in both states. -/
theorem userView_agrees {D : ℕ → Prop} (hD : ∀ a, D a → ∀ access, permitted s.pmp access a = false)
    (h : Agrees D s s') : userView P s' = userView P s := by
  obtain ⟨m, rfl, hm⟩ := h
  rw [userView, userView, UserView.mk.injEq]
  refine ⟨rfl, rfl, funext fun a => ?_⟩
  by_cases ha : D a
  · simp [withMem, hD a ha]
  · simp [withMem, hm a ha]

theorem nextTrap_agrees {D : ℕ → Prop} (hD : ∀ a, D a → ∀ access, permitted s.pmp access a = false)
    (h : Agrees D s s') (program : Program P) (n : ℕ) :
    ∃ m, nextTrap program n s' = { nextTrap program n s with userMem := m } ∧
      ∀ a, ¬ D a → m a = (nextTrap program n s).userMem a := by
  refine ⟨(nextTrap program n s').userMem, ?_, fun a ha => ?_⟩
  · simp only [nextTrap, carryOut, userView_agrees hD h]
  · simp only [nextTrap, carryOut, userView_agrees hD h]
    obtain ⟨m, rfl, hm⟩ := h
    simp only [withMem, hm a ha]

/-- As long as a task sleeps, what its slot holds outside the kernel's sections makes no difference:
two runs of the same programs, none of which touches the kernel's data, from states that differ in
these bytes only halt alike or end in states that differ in these bytes only. -/
theorem sleeping_slot_unseen {host : Option Host} (hok : validateAll m host = .ok ())
    (hnames : ProfileNamesSilent m)
    (hbelow : ∀ t ∈ m.tasks, ∀ r ∈ t.regions, r.base + r.size ≤ 2 ^ 56) (hbuilt : ProfilesFrom P m)
    (hstacks : StacksApart P m) (h : Reachable (kernel P) (StoresPermitted P) s)
    (hagree : Agrees (Secret P i) s s') (program : Program P) {n : ℕ}
    (hsleeps : ∀ k < n, ∀ u, driven (kernel P) (nextTrap program) s k = .ok u →
      u.currentTask ≠ i) :
    Related (Agrees (Secret P i)) (driven (kernel P) (nextTrap program) s n)
      (driven (kernel P) (nextTrap program) s' n) := by
  have hm := accepted_of_validateAll hok
  have hprofiles := hbuilt.profilesOf hm hnames
  have hexact := hardwareExact_built hm hprofiles hbelow
  apply driven_related _ hagree hsleeps
  intro n u v hu hsleep huv
  have hreached := (h.weaken fun _ _ _ => trivial).after hu
  obtain ⟨mem, hnext, hmem⟩ := nextTrap_agrees (fun a ha =>
    secret_unpermitted hm hprofiles hstacks hexact hreached hsleep ha) huv program n
  rw [hnext]
  exact trap_related (secret_unread hm hprofiles hstacks hreached hsleep) hmem huv

end

/-- A program that loads from the data of `task_world` and is then interrupted. -/
def spyProgram : Program referencePlatform where
  step := fun _ view =>
    { regs := fun r => if r = .a0 then ((view.bytes 0x80705000).getD 0).toNat else 0
      pc := 0x80600000
      mcause := interruptBit + 7
      mtval := 0
      mtime := 0
      scratch := fun _ => 0
      stores := fun _ => none }
  spares := fun _ _ _ _ => rfl

/-- A tick of `task_hello` with two contents of the data of `task_world`. -/
theorem taskWorld_unseen : ∃ s v v',
    Reachable (kernel referencePlatform) (StoresPermitted referencePlatform) s ∧
    driven (kernel referencePlatform) (nextTrap spyProgram) s 1 = .ok v ∧
    driven (kernel referencePlatform) (nextTrap spyProgram)
      (withMem (Function.update s.userMem 0x80705000 1) s) 1 = .ok v' ∧
    Agrees (Secret referencePlatform 3) v v' := by
  obtain ⟨s, hs, ht⟩ := endsWith_iff.mp (show endsWith
    (scenario [nativeTask 2 6 3 500000 50, nativeTask 3 7 3 500000 50] [])
    (fun s => decide (s.currentTask = 2) &&
      endsWith (driven (kernel referencePlatform) (nextTrap spyProgram) s 1) fun _ => true) = true by
        decide +kernel)
  obtain ⟨hcur, htrap⟩ := Bool.and_eq_true_iff.mp ht
  obtain ⟨v, hv, -⟩ := endsWith_iff.mp htrap
  have hagree : Agrees (Secret referencePlatform 3) s
      (withMem (Function.update s.userMem 0x80705000 1) s) := by
    refine ⟨_, rfl, fun a ha => Function.update_of_ne ?_ _ _⟩
    rintro rfl
    exact ha ⟨.inl (by decide), rfl⟩
  have hsleeps : ∀ k < 1, ∀ u, driven (kernel referencePlatform) (nextTrap spyProgram) s k = .ok u →
      u.currentTask ≠ 3 := by
    intro k hk u hu
    obtain rfl : k = 0 := by omega
    cases hu
    rw [of_decide_eq_true hcur]
    decide
  have hrelated := sleeping_slot_unseen sipahiToml_accepted sipahiToml_namesSilent
    (by decide) reference_profilesFrom (by decide) (booted_reachable hs) hagree spyProgram hsleeps
  rw [hv, related_ok] at hrelated
  obtain ⟨v', hv', hvv⟩ := hrelated
  exact ⟨s, v, v', booted_reachable hs, hv, hv', hvv⟩

end KernelConfidentiality
