import Sipahi.KernelPolicyEvents
import Sipahi.RunHistory

/-!
# Escalation of capability failures

`CAP_FAIL_COUNT` against the answers that `SYS_CAP_INVOKE` gave along the run.
-/
namespace KernelCapEscalation

open KernelTypes KernelPolicy KernelCapability KernelState KernelTrapFrame KernelScheduler
open KernelSyscall KernelTrap KernelHandlers KernelEvolution KernelSelection KernelBoot
open KernelReference KernelFrame KernelPolicyCalls KernelPolicyEvents RiscvHart GuardedExecution
open RunHistory

/-! ## Calls and their answers -/

/-- The answer of the handler. A call whose escalation shuts the system down has been refused. -/
def capAnswer (P : Platform) (s : Sys) (cap resource action : ℕ) : ℕ :=
  match sysCapInvoke P s cap resource action with
  | .ok (_, r) => r
  | .error _ => errNoCapability

/-- The `SYS_CAP_INVOKE` of a trap: the caller and the answer. -/
def capCall (P : Platform) (s : Sys) (e : TrapEvent) : Option (TaskIndex × ℕ) :=
  match enterHandler P s e with
  | .ok (u, _) =>
    if IsEcall e.mcause ∧ e.regs .a7 = sysCapInvokeId then
      some (u.currentTask,
        capAnswer P (incrementSyscallCount u) (e.regs .a0) (e.regs .a1) (e.regs .a2))
    else none
  | .error _ => none

/-- `E_NO_CAPABILITY` counts, `E_OK` and the escalation reset, `E_INVALID_ARG` does neither. -/
def capMarks (P : Platform) (i : TaskIndex) (s : Sys) (e : TrapEvent) : List Mark :=
  if capCall P s e = some (i, errOk) then [.reset]
  else if capCall P s e = some (i, errNoCapability) then
    if Asked i .capViolation (trapDecisions P s e) then [.count, .reset] else [.count]
  else []

/-- The failures of the task since its last success, its last escalation or boot. -/
def capFailures (P : Platform) (i : TaskIndex) (s : Sys) (es : List TrapEvent) : ℕ :=
  streak (history (kernel P) (capMarks P i) s es)

/-- What the check says before the failures are counted; `none` for arguments out of range. -/
def capOutcome (P : Platform) (s : Sys) (cap resource action : ℕ) : Option Bool :=
  if u8Max < cap ∨ u16Max < resource ∨ u8Max < action then none
  else capabilityGranted P s cap resource action

section

variable {P : Platform} {s u v : Sys} {i : TaskIndex} {cap resource action : ℕ}

theorem sysCapInvoke_eq (P : Platform) (s : Sys) (cap resource action : ℕ) :
    sysCapInvoke P s cap resource action =
      match capOutcome P s cap resource action with
      | none => .ok (s, errInvalidArg)
      | some ok => recordCapResult P s ok >>= fun u =>
          .ok (u, if ok then errOk else errNoCapability) := by
  rw [sysCapInvoke, capOutcome]
  split <;> rfl

theorem capInvokeDecisions_eq (P : Platform) (s : Sys) (cap resource action : ℕ) :
    capInvokeDecisions P s cap resource action =
      match capOutcome P s cap resource action with
      | none => []
      | some ok => recordCapDecisions s ok := by
  rw [capInvokeDecisions, capOutcome]
  split <;> rfl

theorem capAnswer_eq (P : Platform) (s : Sys) (cap resource action : ℕ) :
    capAnswer P s cap resource action =
      match capOutcome P s cap resource action with
      | none => errInvalidArg
      | some true => errOk
      | some false => errNoCapability := by
  rw [capAnswer, sysCapInvoke_eq]
  cases capOutcome P s cap resource action with
  | none => rfl
  | some ok =>
    cases ok with
    | true => rfl
    | false =>
      dsimp only
      cases recordCapResult P s false <;> rfl

theorem capAnswer_ok : capAnswer P s cap resource action = errOk ↔
    capOutcome P s cap resource action = some true := by
  rw [capAnswer_eq]
  split <;> simp_all [errInvalidArg, errOk, errNoCapability, usizeMax]

theorem capAnswer_denied : capAnswer P s cap resource action = errNoCapability ↔
    capOutcome P s cap resource action = some false := by
  rw [capAnswer_eq]
  split <;> simp_all [errInvalidArg, errOk, errNoCapability, usizeMax]

/-! ## The counter -/

/-- No task is one failure past its escalation. -/
def Cooled (s : Sys) : Prop := ∀ i, s.capFailCount i < 3

theorem saturating_three {n : ℕ} (h : n < 3) : 3 ≤ saturatingAdd8 n 1 ↔ n + 1 = 3 := by
  rw [saturatingAdd8, u8Max]
  omega

theorem recordCapResult_count {ok : Bool} (hc : Cooled s) (h : recordCapResult P s ok = .ok u) :
    u.capFailCount = Function.update s.capFailCount s.currentTask
      (if ok = true ∨ s.capFailCount s.currentTask + 1 = 3 then 0
        else s.capFailCount s.currentTask + 1) := by
  have hlt := hc s.currentTask
  simp only [recordCapResult] at h
  split at h
  · rename_i hok
    cases h
    simp [hok]
  · rename_i hfail
    split at h
    · rename_i hthree
      have heq := (saturating_three hlt).mp hthree
      rw [(logged_respond_kept h).capFailCount]
      simp [heq]
    · rename_i hfew
      have hne : s.capFailCount s.currentTask + 1 ≠ 3 := by
        intro heq
        exact hfew ((saturating_three hlt).mpr heq)
      cases h
      have hsat : saturatingAdd8 (s.capFailCount s.currentTask) 1 =
          s.capFailCount s.currentTask + 1 := by
        rw [saturatingAdd8, u8Max]
        omega
      simp [hfail, hne, hsat]

theorem sysCapInvoke_count {r : ℕ} (hc : Cooled s)
    (h : sysCapInvoke P s cap resource action = .ok (u, r)) :
    u.capFailCount =
      match capOutcome P s cap resource action with
      | none => s.capFailCount
      | some ok => Function.update s.capFailCount s.currentTask
          (if ok = true ∨ s.capFailCount s.currentTask + 1 = 3 then 0
            else s.capFailCount s.currentTask + 1) := by
  rw [sysCapInvoke_eq] at h
  cases hout : capOutcome P s cap resource action with
  | none =>
    rw [hout] at h
    cases h
    rfl
  | some ok =>
    rw [hout] at h
    obtain ⟨q, hq, h⟩ := bind_eq_ok.mp h
    cases h
    exact recordCapResult_count hc hq

theorem asked_capInvoke (hc : Cooled s) :
    Asked i .capViolation (capInvokeDecisions P s cap resource action) ↔
      capOutcome P s cap resource action = some false ∧ s.currentTask = i ∧
        s.capFailCount i + 1 = 3 := by
  rw [capInvokeDecisions_eq]
  cases capOutcome P s cap resource action with
  | none => simp [not_asked_nil]
  | some ok =>
    dsimp only
    rw [asked_recordCap, saturating_three (hc s.currentTask)]
    constructor
    · rintro ⟨rfl, hthree, rfl, -⟩
      exact ⟨rfl, rfl, hthree⟩
    · rintro ⟨hok, rfl, hthree⟩
      exact ⟨Option.some.inj hok, hthree, rfl, rfl⟩

/-! ## Everything else -/

theorem timerInterrupt_capFailCount {mtime : ℕ} {r : Option ℕ}
    (h : timerInterrupt P s mtime = .ok (u, r)) : u.capFailCount = s.capFailCount := by
  rw [timerInterrupt] at h
  obtain ⟨q, hq, h⟩ := bind_eq_ok.mp h
  obtain ⟨⟨w, flow⟩, hw, h⟩ := bind_eq_ok.mp h
  obtain ⟨rfl, -⟩ := answerZeroUnlessStarted_eq (Except.ok.inj h)
  refine Eq.trans ?_ (deadlinePhase_kept hq).capFailCount
  rw [scheduleTimerTick] at hw
  split at hw
  · cases hw
    rfl
  · obtain ⟨x, hx, hw⟩ := bind_eq_ok.mp hw
    exact (select_kept hw).capFailCount.trans (tickPhases_kept hx).capFailCount

theorem syscallTable_capFailCount {syscallId arg0 arg1 arg2 : ℕ} {r : Option ℕ}
    (hid : syscallId ≠ sysCapInvokeId)
    (h : syscallTable P s syscallId arg0 arg1 arg2 = .ok (u, r)) :
    u.capFailCount = s.capFailCount := by
  simp only [syscallTable] at h
  split at h
  · exact absurd rfl hid
  · cases h
    exact (sysIpcSend_frame ..).capFailCount
  · cases h
    exact (sysIpcRecv_frame ..).capFailCount
  · obtain ⟨q, hq, h⟩ := bind_eq_ok.mp h
    obtain ⟨⟨w, flow⟩, hw, h⟩ := bind_eq_ok.mp h
    obtain ⟨rfl, -⟩ := okUnlessStarted_eq (Except.ok.inj h)
    exact (scheduleYield_kept hw).capFailCount.trans (watchdogKick_kept hq).capFailCount
  · cases h
    rfl
  · obtain ⟨q, hq, h⟩ := bind_eq_ok.mp h
    obtain ⟨⟨w, flow⟩, hw, h⟩ := bind_eq_ok.mp h
    obtain ⟨rfl, -⟩ := okUnlessStarted_eq (Except.ok.inj h)
    exact (scheduleYield_kept hw).capFailCount.trans (isolateTask_kept hq).capFailCount
  · cases h

theorem dispatch_capFailCount {syscallId arg0 arg1 arg2 : ℕ} {r : Option ℕ}
    (hid : syscallId ≠ sysCapInvokeId)
    (h : dispatch P s syscallId arg0 arg1 arg2 = .ok (u, r)) : u.capFailCount = s.capFailCount := by
  rw [dispatch] at h
  split at h
  · cases h
    rfl
  · obtain ⟨⟨w, x⟩, hw, h⟩ := bind_eq_ok.mp h
    cases h
    exact (syscallTable_capFailCount hid hw).trans (incrementSyscallCount_kept s).capFailCount

/-! ## The trap -/

/-- The trap is a `SYS_CAP_INVOKE`. -/
def CapTrap (e : TrapEvent) : Prop := IsEcall e.mcause ∧ e.regs .a7 = sysCapInvokeId

section

variable {e : TrapEvent} {args : Reg → ℕ}

theorem capCall_none (hno : ¬ CapTrap e) : capCall P s e = none := by
  rw [capCall]
  split
  · exact if_neg hno
  · rfl

theorem capCall_entered (hu : enterHandler P s e = .ok (u, args)) (hcap : CapTrap e) :
    capCall P s e = some (u.currentTask,
      capAnswer P (incrementSyscallCount u) (e.regs .a0) (e.regs .a1) (e.regs .a2)) := by
  rw [capCall, hu]
  exact if_pos hcap

theorem entered_cooled (hu : enterHandler P s e = .ok (u, args)) (hc : Cooled s) :
    (incrementSyscallCount u).capFailCount = s.capFailCount ∧
      Cooled (incrementSyscallCount u) := by
  have hcount : (incrementSyscallCount u).capFailCount = s.capFailCount :=
    (incrementSyscallCount_kept u).capFailCount.trans (entered_kept (f := id) hu).capFailCount
  refine ⟨hcount, ?_⟩
  intro i
  rw [hcount]
  exact hc i

theorem asked_capTrap (h : Asked i .capViolation (trapDecisions P s e)) : CapTrap e := by
  cases hu : enterHandler P s e with
  | error =>
    simp only [trapDecisions, hu, onOk] at h
    exact absurd h not_asked_nil
  | ok entered =>
    by_cases ht : IsTimer e.mcause
    · rw [trapDecisions_timer hu ht] at h
      rcases asked_timer h with hev | hev | hev <;> cases hev
    · by_cases he : IsEcall e.mcause
      · rw [trapDecisions_syscall hu he] at h
        rcases asked_syscall h with ⟨hid, -⟩ | ⟨-, hev, -⟩
        · exact ⟨he, hid⟩
        · cases hev
      · rcases asked_other ht he h with hev | hev <;> cases hev

theorem asked_escalation (hc : Cooled s) :
    Asked i .capViolation (trapDecisions P s e) ↔
      capCall P s e = some (i, errNoCapability) ∧ s.capFailCount i + 1 = 3 := by
  by_cases hcap : CapTrap e
  · cases hu : enterHandler P s e with
    | error => simp [trapDecisions, capCall, hu, onOk, not_asked_nil]
    | ok entered =>
      obtain ⟨hcount, hcooled⟩ := entered_cooled hu hc
      rw [trapDecisions_syscall hu hcap.1, capCall_entered hu hcap, hcap.2]
      simp only [dispatchDecisions, sysCapInvokeId, syscallCount, Nat.reduceLeDiff, if_false,
        syscallDecisions]
      rw [asked_capInvoke hcooled, hcount, incrementSyscallCount_currentTask, Option.some.injEq,
        Prod.mk.injEq, capAnswer_denied]
      constructor
      · rintro ⟨hout, hi, hthree⟩
        exact ⟨⟨hi, hout⟩, hthree⟩
      · rintro ⟨⟨hi, hout⟩, hthree⟩
        exact ⟨hout, hi, hthree⟩
  · rw [capCall_none hcap]
    simp only [reduceCtorEq, false_and, iff_false]
    intro h
    exact hcap (asked_capTrap h)

theorem trap_capFailCount (hc : Cooled s) (h : trap P s e = .ok v) (i : TaskIndex) :
    v.capFailCount i = advance (s.capFailCount i) (capMarks P i s e) := by
  obtain ⟨u, args, w, r, hu, hw, rfl⟩ := trap_handled h
  have hentered : u.capFailCount = s.capFailCount := (entered_kept (f := id) hu).capFailCount
  rw [(leaveHandler_kept (f := id) P w r).capFailCount]
  by_cases hcap : CapTrap e
  · obtain ⟨hcount, hcooled⟩ := entered_cooled hu hc
    cases hw with
    | timer ht => exact absurd ht (ecall_not_timer hcap.1)
    | fault hf => exact absurd hcap.1.2 hf.2
    | ignored _ he => exact absurd hcap.1 he
    | syscall _ hd =>
      rw [hcap.2] at hd
      obtain ⟨x, hx⟩ := dispatch_served (by decide) hd
      obtain ⟨⟨y, answer⟩, hy, hx⟩ := bind_eq_ok.mp hx
      cases hx
      rw [sysCapInvoke_count hcooled hy, capMarks, capCall_entered hu hcap]
      simp only [Option.some.injEq, Prod.mk.injEq, capAnswer_ok, capAnswer_denied,
        asked_escalation hc, capCall_entered hu hcap, hcount, incrementSyscallCount_currentTask]
      by_cases hi : u.currentTask = i
      · subst hi
        rcases capOutcome P (incrementSyscallCount u) (e.regs .a0) (e.regs .a1) (e.regs .a2) with
          _ | _ | _
        · simp [advance]
        · by_cases hthree : s.capFailCount u.currentTask + 1 = 3
          · simp [hthree, advance]
          · simp [hthree, advance]
        · simp [advance]
      · have hne : i ≠ u.currentTask := Ne.symm hi
        simp only [hi, false_and, if_false, advance]
        split
        · rfl
        · rw [Function.update_of_ne hne]
  · have hkept : w.capFailCount = u.capFailCount := by
      cases hw with
      | timer _ ht => exact timerInterrupt_capFailCount ht
      | syscall he hd => exact dispatch_capFailCount (fun hid => hcap ⟨he, hid⟩) hd
      | fault hf hx => exact (faultTrap_kept hf.2 hx).capFailCount
      | ignored _ _ hsame => rw [hsame]
    rw [hkept, hentered, capMarks, capCall_none hcap]
    rfl

theorem trap_cooled (hc : Cooled s) (h : trap P s e = .ok v) : Cooled v := by
  intro i
  rw [trap_capFailCount hc h, capMarks]
  have hlt := hc i
  split
  · exact Nat.zero_lt_succ _
  · split
    · rename_i hdenied
      split
      · exact Nat.zero_lt_succ _
      · rename_i hfew
        have hne : s.capFailCount i + 1 ≠ 3 := by
          intro hthree
          exact hfew ((asked_escalation hc).mpr ⟨hdenied, hthree⟩)
        simp only [advance]
        omega
    · exact hlt

end

end

/-- In every run from boot the counter is the streak of failures, it is below three, and the
policy is asked exactly at the third failure of a streak. -/
theorem cap_escalation_exact {P : Platform} {s₀ s : Sys} {es : List TrapEvent}
    (h0 : (kernel P).Initial s₀) (h : run (kernel P) s₀ es = .ok s) (i : TaskIndex) :
    s.capFailCount i = capFailures P i s₀ es ∧ s.capFailCount i < 3 ∧
      ∀ e, Asked i .capViolation (trapDecisions P s e) ↔
        capCall P s e = some (i, errNoCapability) ∧ capFailures P i s₀ es + 1 = 3 := by
  have hzero : s₀.capFailCount = fun _ => 0 := (initial_counters h0).1.capFailCount
  have hcold : Cooled s₀ := by
    intro j
    rw [hzero]
    exact Nat.zero_lt_succ _
  have hstep : ∀ q e u, Cooled q → (kernel P).step q e = .ok u →
      Cooled u ∧ u.capFailCount i = advance (q.capFailCount i) (capMarks P i q e) := by
    intro q e u hq hu
    constructor
    · exact trap_cooled hq hu
    · exact trap_capFailCount hq hu i
  have hcooled : Cooled s := by
    apply run_keeps (I := Cooled) _ hcold h
    intro q e u hq hu
    exact (hstep q e u hq hu).1
  have hcount : s.capFailCount i = capFailures P i s₀ es := by
    rw [run_advances (fun q => q.capFailCount i) hstep hcold h, hzero, advance_zero]
    rfl
  refine ⟨hcount, hcooled i, ?_⟩
  intro e
  rw [asked_escalation hcooled, hcount]

/-- A read on a local resource. -/
def localRead : TrapEvent := ecallAt 0x80001000 (syscallRegs sysCapInvokeId 0x80 0 1)

/-- Task 0 holds no local capability: after two refusals the third call escalates. -/
theorem third_refusal_escalates : ∃ s₀ s,
    run (kernel referencePlatform) s₀ [localRead, localRead] = .ok s ∧ s.capFailCount 0 = 2 ∧
      Asked 0 .capViolation (trapDecisions referencePlatform s localRead) := by
  obtain ⟨s₀, hs₀, ht⟩ := endsWith_iff.mp (show endsWith
    (boot referencePlatform resetHart 0 (fun _ => 0) bootInit)
    (fun s₀ => endsWith (run (kernel referencePlatform) s₀ [localRead, localRead]) fun s =>
      decide (s.capFailCount 0 = 2 ∧
        capCall referencePlatform s localRead = some (0, errNoCapability))) = true
    by decide +kernel)
  obtain ⟨s, hs, ht⟩ := endsWith_iff.mp ht
  obtain ⟨htwo, hcall⟩ := of_decide_eq_true ht
  obtain ⟨hcount, -, hasked⟩ := cap_escalation_exact ⟨_, _, _, _, hs₀⟩ hs 0
  refine ⟨s₀, s, hs, htwo, (hasked localRead).mpr ⟨hcall, ?_⟩⟩
  rw [← hcount, htwo]

end KernelCapEscalation
