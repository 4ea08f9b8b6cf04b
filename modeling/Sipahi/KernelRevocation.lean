import Sipahi.KernelTaskInvariants

/-!
# Revocation on isolation

The token cache and the pointer checks refuse an isolated caller; the static local table does
not look at the task's state.
-/
namespace KernelRevocation

open KernelTypes KernelPolicy KernelCapability KernelState KernelTrapFrame KernelScheduler
open KernelSyscall KernelTrap KernelHandlers KernelEvolution KernelSelection KernelTaskInvariants
open KernelReference RiscvHart GuardedExecution

/-- The call does not succeed and touches no channel. -/
def Refused (P : Platform) (s : Sys) (syscallId arg0 arg1 arg2 : ℕ) : Prop :=
  ∀ u r, dispatch P s syscallId arg0 arg1 arg2 = .ok (u, r) →
    r ≠ some errOk ∧ u.pool.channels = s.pool.channels

/-- `SYS_CAP_INVOKE` on the local path, with arguments in range and an entry in the table. -/
def LocallyGranted (P : Platform) (caller : TaskIndex) (cap resource action : ℕ) : Prop :=
  cap = 0x80 ∧ resource ≤ u16Max ∧ action ≤ u8Max ∧
    localCapCheck P.localCapTable caller.val (resource % 2 ^ 8) action = true

theorem localPath_iff (cap : ℕ) (h : cap ≤ u8Max) :
    cap &&& 0x80 ≠ 0 ∧ cap &&& 0x7F = 0 ↔ cap = 0x80 := by
  have hall : ∀ c : Fin 256, c.val &&& 0x80 ≠ 0 ∧ c.val &&& 0x7F = 0 ↔ c.val = 0x80 := by
    decide +kernel
  exact hall ⟨cap, by simp only [u8Max] at h; omega⟩

theorem hideKernelPointer_ok (P : Platform) (r : ℕ) :
    hideKernelPointer P r = errOk ↔ r = errOk := by
  have hpos := P.textStart_pos
  rw [hideKernelPointer, Platform.kernelStart, errOk, errInternal, usizeMax]
  split <;> omega

theorem isolated_token_refused {s : Sys} (hi : TaskInv s)
    (hiso : s.current.state = .isolated) (now tokenId resource action : ℕ) :
    s.broker.validateCached now s.currentTask.val tokenId resource action = false := by
  rw [Bool.eq_false_iff]
  intro hv
  have hid := (hi.created s.currentTask hi.currentAlive).2
  exact hi.purged s.currentTask hiso (hid ▸ lookup_owns hv)

theorem isolated_pointer_refused {P : Platform} {s : Sys} (hiso : s.current.state = .isolated)
    (ptr size : ℕ) (access : KernelPmp.Access) :
    isValidUserPtr P s s.currentTask ptr size access = false := by
  have hnative : isTaskSntmNative s s.currentTask = false := by
    simp [isTaskSntmNative, show (s.tasks s.currentTask).state = .isolated from hiso]
  have hrange : taskStackRange s s.currentTask = none := by
    simp [taskStackRange, show (s.tasks s.currentTask).state = .isolated from hiso]
  simp only [isValidUserPtr, hnative, hrange, Bool.not_false, if_true]
  split
  · rfl
  · cases checkedAdd ptr size <;> rfl

/-- An isolated caller passes the capability check on the local path only. -/
theorem isolated_granted_iff {P : Platform} {s : Sys} (hi : TaskInv s)
    (hiso : s.current.state = .isolated) {cap resource action : ℕ}
    (hrange : ¬ (u8Max < cap ∨ u16Max < resource ∨ u8Max < action)) :
    capabilityGranted P s cap resource action = some true ↔
      LocallyGranted P s.currentTask cap resource action := by
  have hpath := localPath_iff cap (by omega)
  rw [capabilityGranted, LocallyGranted]
  split
  · rename_i hbit
    split
    · rename_i hlow
      simp only [reduceCtorEq, false_iff]
      exact fun hl => hlow (hpath.mpr hl.1).2
    · rename_i hlow
      have hcap := hpath.mp ⟨hbit, not_not.mp hlow⟩
      simp only [Option.some.injEq]
      exact ⟨fun hl => ⟨hcap, by omega, by omega, hl⟩, fun hl => hl.2.2.2⟩
  · rename_i hbit
    rw [isolated_token_refused hi hiso]
    simp only [Option.some.injEq, Bool.false_eq_true, false_iff]
    exact fun hl => hbit (hpath.mpr hl.1).1

theorem recordCapResult_pool {P : Platform} {s u : Sys} {ok : Bool}
    (h : recordCapResult P s ok = .ok u) : u.pool = s.pool := by
  simp only [recordCapResult] at h
  split at h
  · cases h
    rfl
  · split at h
    · obtain ⟨q, hq, ha⟩ := respond_acts h
      have hiso : isolateTask q s.currentTask = .ok u := by
        simpa [answer, PolicyEvent.code, decideAction, Acts] using ha
      obtain ⟨tasks, cache, hrest⟩ := (markIsolated_frame q s.currentTask).rest
      rw [(isolateTask_ok hiso).1, hrest]
      exact hq.pool
    · cases h
      rfl

/-- What the system call proper has to satisfy for the dispatch to refuse it. -/
theorem refused_of_table {P : Platform} {s : Sys} {syscallId arg0 arg1 arg2 : ℕ}
    (h : ∀ u r, syscallTable P (incrementSyscallCount s) syscallId arg0 arg1 arg2 = .ok (u, r) →
      r ≠ some errOk ∧ u.pool.channels = s.pool.channels) :
    Refused P s syscallId arg0 arg1 arg2 := by
  intro u r hd
  rw [dispatch] at hd
  split at hd
  · cases hd
    exact ⟨by simp [errInvalidSyscall, errOk, usizeMax], rfl⟩
  · obtain ⟨⟨v, x⟩, hv, hd⟩ := bind_eq_ok.mp hd
    cases hd
    obtain ⟨hx, hpool⟩ := h _ x hv
    refine ⟨fun hr => hx ?_, hpool⟩
    cases x with
    | none => cases hr
    | some y => rw [(hideKernelPointer_ok P y).mp (Option.some.inj hr)]

theorem isolated_capInvoke_refused {P : Platform} {s : Sys} (hi : TaskInv s)
    (hiso : s.current.state = .isolated) {cap resource action : ℕ}
    (hno : ¬ LocallyGranted P s.currentTask cap resource action) {u : Sys} {r : ℕ}
    (h : sysCapInvoke P s cap resource action = .ok (u, r)) : r ≠ errOk ∧ u.pool = s.pool := by
  rw [sysCapInvoke] at h
  split at h
  · cases h
    exact ⟨by decide, rfl⟩
  · rename_i hrange
    split at h
    · cases h
      exact ⟨by decide, rfl⟩
    · rename_i ok hok
      obtain ⟨v, hv, h⟩ := bind_eq_ok.mp h
      cases h
      refine ⟨?_, recordCapResult_pool hv⟩
      cases ok with
      | true => exact absurd ((isolated_granted_iff hi hiso hrange).mp hok) hno
      | false => decide

theorem isolated_ipcSend_refused {P : Platform} {s : Sys} (hiso : s.current.state = .isolated)
    (channelId msgPtr : ℕ) : sysIpcSend P s channelId msgPtr = (s, errInvalidArg) := by
  rw [sysIpcSend]
  split
  · simp [isolated_pointer_refused hiso]
  · rfl

theorem isolated_ipcRecv_refused {P : Platform} {s : Sys} (hiso : s.current.state = .isolated)
    (channelId bufPtr : ℕ) : sysIpcRecv P s channelId bufPtr = (s, errInvalidArg) := by
  rw [sysIpcRecv]
  split
  · simp [isolated_pointer_refused hiso]
  · rfl

theorem incrementSyscallCount_isolated {s : Sys} (h : s.current.state = .isolated) :
    (incrementSyscallCount s).current.state = .isolated := by
  have he := (ipcFrame_evolves (incrementSyscallCount_frame s)).1
  rw [Sys.current]
  rw [he.currentTask]
  exact he.isolated _ h

theorem locallyGranted_ok {P : Platform} {s : Sys} {cap resource action : ℕ} (hi : TaskInv s)
    (hiso : s.current.state = .isolated) (hl : LocallyGranted P s.currentTask cap resource action) :
    ∃ u, dispatch P s sysCapInvokeId cap resource action = .ok (u, some errOk) := by
  have hrange : ¬ (u8Max < cap ∨ u16Max < resource ∨ u8Max < action) := by
    obtain ⟨rfl, hr, ha, -⟩ := hl
    simp only [u8Max] at ha ⊢
    omega
  have hinv := taskInv_evolves (ipcFrame_evolves (incrementSyscallCount_frame s)).1 hi
  have hcur := incrementSyscallCount_currentTask s
  have hg : capabilityGranted P (incrementSyscallCount s) cap resource action = some true :=
    (isolated_granted_iff hinv (incrementSyscallCount_isolated hiso) hrange).mpr (hcur ▸ hl)
  have hhide : hideKernelPointer P errOk = errOk := (hideKernelPointer_ok P errOk).mpr rfl
  have hcall : ∃ v, sysCapInvoke P (incrementSyscallCount s) cap resource action =
      .ok (v, errOk) := by
    rw [sysCapInvoke, if_neg hrange, hg]
    exact ⟨_, rfl⟩
  obtain ⟨v, hv⟩ := hcall
  refine ⟨v, bind_eq_ok.mpr ⟨(v, some errOk), bind_eq_ok.mpr ⟨(v, errOk), hv, rfl⟩, ?_⟩⟩
  simp [hhide]

theorem isolated_dispatch_refused_iff {P : Platform} {s : Sys} (hi : TaskInv s)
    (hiso : s.current.state = .isolated) {syscallId : ℕ}
    (hid : syscallId = sysCapInvokeId ∨ syscallId = sysIpcSendId ∨ syscallId = sysIpcRecvId)
    (arg0 arg1 arg2 : ℕ) : Refused P s syscallId arg0 arg1 arg2 ↔
      ¬ (syscallId = sysCapInvokeId ∧ LocallyGranted P s.currentTask arg0 arg1 arg2) := by
  have hiso' := incrementSyscallCount_isolated hiso
  have hpool := (incrementSyscallCount_counted s).pool
  constructor
  · rintro h ⟨rfl, hl⟩
    obtain ⟨u, hu⟩ := locallyGranted_ok hi hiso hl
    exact (h u _ hu).1 rfl
  · intro hno
    refine refused_of_table fun u r h => ?_
    rcases hid with rfl | rfl | rfl
    · obtain ⟨⟨v, x⟩, hv, h⟩ := bind_eq_ok.mp h
      cases h
      have hinv := taskInv_evolves (ipcFrame_evolves (incrementSyscallCount_frame s)).1 hi
      have hno' : ¬ LocallyGranted P (incrementSyscallCount s).currentTask arg0 arg1 arg2 := by
        rw [incrementSyscallCount_currentTask]
        exact fun hl => hno ⟨rfl, hl⟩
      obtain ⟨hx, hp⟩ := isolated_capInvoke_refused hinv hiso' hno' hv
      exact ⟨fun hr => hx (Option.some.inj hr), by rw [hp, hpool]⟩
    · simp only [syscallTable, sysIpcSendId, isolated_ipcSend_refused hiso'] at h
      cases h
      exact ⟨by decide, by rw [hpool]⟩
    · simp only [syscallTable, sysIpcRecvId, isolated_ipcRecv_refused hiso'] at h
      cases h
      exact ⟨by decide, by rw [hpool]⟩

/-- Whatever an isolated task passes in a system call, the call is refused unless it takes the
local path with an entry in the static table. -/
theorem isolated_task_refused_iff {P : Platform} {s u : Sys} {e : TrapEvent} {args : Reg → ℕ}
    (h : Reachable (kernel P) anyStep s) (hiso : s.current.state = .isolated)
    (hu : enterHandler P s e = .ok (u, args))
    (hid : e.regs .a7 = sysCapInvokeId ∨ e.regs .a7 = sysIpcSendId ∨
      e.regs .a7 = sysIpcRecvId) :
    Refused P u (e.regs .a7) (e.regs .a0) (e.regs .a1) (e.regs .a2) ↔
      ¬ (e.regs .a7 = sysCapInvokeId ∧
        LocallyGranted P s.currentTask (e.regs .a0) (e.regs .a1) (e.regs .a2)) := by
  have hin := entered_sameKernel hu
  have hiso' : u.current.state = .isolated := by
    rw [Sys.current]
    rw [hin.tasks, hin.currentTask]
    exact hiso
  rw [← hin.currentTask]
  exact isolated_dispatch_refused_iff (taskInv_sameKernel hin (reachable_taskInv h)) hiso' hid ..

/-- `SYS_CAP_INVOKE` with the given capability byte, resource and action. -/
def capInvoke (cap resource action : ℕ) : TrapEvent :=
  ecallAt 0x80100000 (syscallRegs sysCapInvokeId cap resource action)

/-- Task 0 uses up its budget, task 2 takes over and is isolated for three refused requests. -/
def isolatesTask2 : List TrapEvent :=
  List.replicate 3 (timerAt 0x80001000 fun _ => 0) ++ List.replicate 3 (capInvoke 0 0 0)

/-- Task 2 executes while isolated, and its next request reaches the handler. -/
theorem task2_isolated (e : TrapEvent)
    (hrun : endsWith (scenario bootInit (isolatesTask2 ++ [e])) (fun _ => true) = true) :
    ∃ s u args, Reachable (kernel referencePlatform) anyStep s ∧ s.currentTask = 2 ∧
      s.current.state = .isolated ∧ enterHandler referencePlatform s e = .ok (u, args) := by
  obtain ⟨v, hv, -⟩ := endsWith_iff.mp hrun
  obtain ⟨s, hs, hstep⟩ := scenario_append _ hv
  rw [run_singleton] at hstep
  obtain ⟨s', hs', ht⟩ := endsWith_iff.mp (show endsWith (scenario bootInit isolatesTask2)
    (fun s => decide (s.currentTask = 2 ∧ s.current.state = .isolated)) = true by decide +kernel)
  obtain rfl : s = s' := Except.ok.inj (hs.symm.trans hs')
  obtain ⟨hcur, hiso⟩ := of_decide_eq_true ht
  obtain ⟨u, args, -, -, ⟨hu, -⟩, -⟩ := trap_ok hstep
  exact ⟨s, u, args, scenario_reachable hs, hcur, hiso, hu⟩

instance (P : Platform) (caller : TaskIndex) (cap resource action : ℕ) :
    Decidable (LocallyGranted P caller cap resource action) :=
  inferInstanceAs (Decidable (_ ∧ _ ∧ _ ∧ _))

theorem isolated_task_refused_without_entry : ∃ s u args,
    Reachable (kernel referencePlatform) anyStep s ∧ s.current.state = .isolated ∧
      enterHandler referencePlatform s (capInvoke 0x80 1 2) = .ok (u, args) ∧
      Refused referencePlatform u sysCapInvokeId 0x80 1 2 := by
  obtain ⟨s, u, args, hr, hcur, hiso, hu⟩ := task2_isolated (capInvoke 0x80 1 2)
    (by decide +kernel)
  refine ⟨s, u, args, hr, hiso, hu, (isolated_task_refused_iff hr hiso hu (Or.inl rfl)).mpr ?_⟩
  rw [hcur]
  exact fun hl => absurd hl.2 (by decide)

/-- The table grants task 2 a write on resource 0, isolated or not. -/
theorem isolated_task_granted : ¬ ∀ (P : Platform) (s u : Sys) (e : TrapEvent) (args : Reg → ℕ),
    Reachable (kernel P) anyStep s → s.current.state = .isolated →
    enterHandler P s e = .ok (u, args) →
    (e.regs .a7 = sysCapInvokeId ∨ e.regs .a7 = sysIpcSendId ∨ e.regs .a7 = sysIpcRecvId) →
    Refused P u (e.regs .a7) (e.regs .a0) (e.regs .a1) (e.regs .a2) := by
  intro h
  obtain ⟨s, u, args, hr, hcur, hiso, hu⟩ := task2_isolated (capInvoke 0x80 0 2)
    (by decide +kernel)
  have hin := entered_sameKernel hu
  have hiso' : u.current.state = .isolated := by
    rw [Sys.current]
    rw [hin.tasks, hin.currentTask]
    exact hiso
  have hl : LocallyGranted referencePlatform u.currentTask 0x80 0 2 := by
    rw [hin.currentTask, hcur]
    decide
  obtain ⟨v, hv⟩ := locallyGranted_ok (taskInv_sameKernel hin (reachable_taskInv hr)) hiso' hl
  exact (h _ s u _ args hr hiso hu (Or.inl rfl) v _ hv).1 rfl

end KernelRevocation
