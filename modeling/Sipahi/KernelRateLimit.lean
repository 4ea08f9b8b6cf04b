import Sipahi.KernelAccounting
import Sipahi.KernelRevocation
import Sipahi.RunHistory

/-!
# The send rate limit

Every send that passes the checks raises `ipc_send_count`, a failed one included; a tick clears it
when the watchdog loop finds the task `Ready` or `Running`.
-/
namespace KernelRateLimit

open KernelTypes KernelState KernelTrapFrame KernelScheduler KernelSyscall KernelTrap KernelSelection
open KernelBoot KernelTaskInvariants KernelReference KernelDegradation KernelFrame KernelAccounting
open KernelRevocation RiscvHart GuardedExecution RunHistory

/-- The task calls `SYS_IPC_SEND` and is answered with `E_OK`. -/
def sendOk (P : Platform) (i : TaskIndex) (s : Sys) (e : TrapEvent) : Bool :=
  (enterHandler P s e).toOption.any fun entered =>
    decide (SendCall e ∧ entered.1.currentTask = i) &&
      (dispatch P entered.1 (e.regs .a7) (e.regs .a0) (e.regs .a1) (e.regs .a2)).toOption.any
        fun r => r.2 == some errOk

/-- The tick finds the task `Ready` or `Running` when the watchdog loop comes to it. -/
def replenished (P : Platform) (i : TaskIndex) (s : Sys) (e : TrapEvent) : Bool :=
  (visitPoint P i s e).any fun y => isSelectableByScheduler (y.tasks i).state

section

variable {P : Platform} {i : TaskIndex} {s u v : Sys} {e : TrapEvent} {args : Reg → ℕ}

/-! ## One send -/

/-- What a send does to the counter of a task. -/
structure SendCounted (i : TaskIndex) (s u : Sys) (answer : ℕ) : Prop where
  mono : (s.tasks i).ipcSendCount ≤ (u.tasks i).ipcSendCount
  bounded : (s.tasks i).ipcSendCount ≤ maxSendsPerTick →
    (u.tasks i).ipcSendCount ≤ maxSendsPerTick
  paid : i = s.currentTask → answer = errOk →
    (u.tasks i).ipcSendCount = (s.tasks i).ipcSendCount + 1

theorem sendCounted_refused (answer : ℕ) (h : answer ≠ errOk) : SendCounted i s s answer :=
  ⟨le_rfl, fun h => h, fun _ hok => absurd hok h⟩

theorem incrementIpcSend_counted (h : checkIpcRate s = true) (answer : ℕ) :
    SendCounted i s (incrementIpcSend s) answer := by
  simp only [checkIpcRate, Bool.and_eq_true, decide_eq_true_eq] at h
  obtain ⟨hin, hroom⟩ := h
  have hnext : wrappingAdd32 s.current.ipcSendCount 1 = s.current.ipcSendCount + 1 := by
    rw [maxSendsPerTick] at hroom
    rw [wrappingAdd32]
    omega
  rw [incrementIpcSend, if_pos hin, hnext]
  by_cases hi : i = s.currentTask
  · subst hi
    have hcurrent : (s.tasks s.currentTask).ipcSendCount = s.current.ipcSendCount := rfl
    constructor
    · simp [hcurrent]
    · intro _
      simp only [setTask_tasks, Function.update_self]
      omega
    · intro _ _
      simp [hcurrent]
  · constructor
    · simp [hi]
    · simp [hi]
    · intro hc
      exact absurd hc hi

theorem sysIpcSend_counted (P : Platform) (s : Sys) (channelId msgPtr : ℕ) (i : TaskIndex) :
    SendCounted i s (sysIpcSend P s channelId msgPtr).1 (sysIpcSend P s channelId msgPtr).2 := by
  simp only [sysIpcSend]
  split
  · split
    · exact sendCounted_refused errInvalidArg (by decide)
    · split
      · exact sendCounted_refused errInvalidArg (by decide)
      · split
        · exact sendCounted_refused errNoCapability (by decide)
        · split
          · exact sendCounted_refused errRateLimited (by decide)
          · rename_i hrate
            have hroom : checkIpcRate s = true := by simpa using hrate
            have hsent : SendCounted i s (incrementIpcSend s) errOk :=
              incrementIpcSend_counted hroom errOk
            split
            · exact ⟨hsent.mono, hsent.bounded, hsent.paid⟩
            · exact incrementIpcSend_counted hroom errIpcFull
  · exact sendCounted_refused errInvalidArg (by decide)

theorem dispatch_send_ok {arg0 arg1 arg2 : ℕ} {r : Option ℕ}
    (h : dispatch P s sysIpcSendId arg0 arg1 arg2 = .ok (u, r)) (hr : r = some errOk) :
    (sysIpcSend P (incrementSyscallCount s) arg0 arg1).2 = errOk := by
  rw [dispatch, if_neg (by decide)] at h
  obtain ⟨⟨w, x⟩, hw, h⟩ := bind_eq_ok.mp h
  cases hw
  cases h
  exact (hideKernelPointer_ok P _).mp (Option.some.inj hr)

theorem sendOk_sent (hu : enterHandler P s e = .ok (u, args)) (h : sendOk P i s e = true) :
    SendCall e ∧ u.currentTask = i ∧
      (sysIpcSend P (incrementSyscallCount u) (e.regs .a0) (e.regs .a1)).2 = errOk := by
  obtain ⟨entered, hentered, h⟩ := (Option.any_eq_true ..).mp h
  obtain rfl : (u, args) = entered := Except.ok.inj (hu.symm.trans (toOption_some.mp hentered))
  rw [Bool.and_eq_true, decide_eq_true_eq] at h
  obtain ⟨⟨hcall, hcaller⟩, h⟩ := h
  obtain ⟨⟨w, r⟩, hw, hr⟩ := (Option.any_eq_true ..).mp h
  rw [hcall.2] at hw
  exact ⟨hcall, hcaller, dispatch_send_ok (toOption_some.mp hw) (beq_iff_eq.mp hr)⟩

theorem sendOk_call (h : sendOk P i s e = true) : SendCall e := by
  obtain ⟨entered, hentered, h⟩ := (Option.any_eq_true ..).mp h
  rw [Bool.and_eq_true, decide_eq_true_eq] at h
  exact h.1.1

theorem sendOk_false (h : ¬ SendCall e) : sendOk P i s e = false :=
  Bool.eq_false_iff.mpr fun hok => h (sendOk_call hok)

/-! ## One trap -/

theorem visited_sends (t : Task) :
    (visited t).ipcSendCount =
      if isSelectableByScheduler t.state = true then 0 else t.ipcSendCount := by
  have hcount : (watchdogCount t).ipcSendCount =
      if isSelectableByScheduler t.state = true then 0 else t.ipcSendCount := by
    simp only [watchdogCount, isSelectable_iff, or_comm]
    split <;> split <;> rfl
  rw [visited]
  split
  · exact hcount
  · exact hcount

theorem rate_step (hs : TaskInv s) (hle : (s.tasks i).ipcSendCount ≤ maxSendsPerTick)
    (h : trap P s e = .ok v) :
    (v.tasks i).ipcSendCount ≤ maxSendsPerTick ∧
      (sendOk P i s e).toNat + (s.tasks i).ipcSendCount ≤
        maxSendsPerTick * (replenished P i s e).toNat + (v.tasks i).ipcSendCount := by
  have hquiet : ¬ SendCall e → (v.tasks i).ipcSendCount = (s.tasks i).ipcSendCount →
      (v.tasks i).ipcSendCount ≤ maxSendsPerTick ∧
        (sendOk P i s e).toNat + (s.tasks i).ipcSendCount ≤
          maxSendsPerTick * (replenished P i s e).toNat + (v.tasks i).ipcSendCount := by
    intro hno hsame
    rw [sendOk_false hno, hsame, Bool.toNat_false]
    exact ⟨hle, by omega⟩
  cases trap_effect h with
  | tick htick =>
    have hno : ¬ SendCall e := by
      intro hc
      exact ecall_not_timer hc.1 htick.timer
    obtain ⟨y, hy, hv⟩ := htick.visit hs i
    have hsame : (y.tasks i).ipcSendCount = (s.tasks i).ipcSendCount :=
      view_field (visitPoint_some hy).1 Task.ipcSendCount fun _ => rfl
    have hsends : (v.tasks i).ipcSendCount = (visited (y.tasks i)).ipcSendCount :=
      view_field hv Task.ipcSendCount fun _ => rfl
    have hrefill : replenished P i s e = isSelectableByScheduler (y.tasks i).state := by
      rw [replenished, hy, Option.any_some]
    rw [visited_sends, ← hrefill, hsame] at hsends
    split at hsends
    · rename_i hselectable
      rw [sendOk_false hno, hselectable, hsends, Bool.toNat_false, Bool.toNat_true]
      exact ⟨Nat.zero_le _, by omega⟩
    · exact hquiet hno hsends
  | kick hy _ hcounters =>
    apply hquiet
    · intro hc
      exact absurd (hy.2.symm.trans hc.2) (by decide)
    · exact kicked_field (hcounters i) Task.ipcSendCount (fun _ => rfl) fun _ => rfl
  | @send u args hcall _ hu hcounters =>
    have hcounted := sysIpcSend_counted P (incrementSyscallCount u) (e.regs .a0) (e.regs .a1) i
    have hentered : ((incrementSyscallCount u).tasks i).ipcSendCount = (s.tasks i).ipcSendCount :=
      ((entered_kept hu).trans (incrementSyscallCount_kept u)).field Task.ipcSendCount
        (fun _ => rfl) i
    have hv := view_field (hcounters i) Task.ipcSendCount fun _ => rfl
    have hmono := hcounted.mono
    refine ⟨hv ▸ hcounted.bounded (hentered ▸ hle), ?_⟩
    rw [hv]
    cases hok : sendOk P i s e with
    | false =>
      rw [Bool.toNat_false]
      omega
    | true =>
      obtain ⟨-, hcaller, hanswer⟩ := sendOk_sent hu hok
      have hpaid := hcounted.paid
        (hcaller.symm.trans (incrementSyscallCount_currentTask u).symm) hanswer
      rw [Bool.toNat_true]
      omega
  | other _ hno _ _ hcounters =>
    exact hquiet hno (view_field (hcounters i) Task.ipcSendCount fun _ => rfl)

theorem reachable_rate (h : Reachable (kernel P) anyStep s) (i : TaskIndex) :
    (s.tasks i).ipcSendCount ≤ maxSendsPerTick := by
  apply reachable_invariant (I := fun q => (q.tasks i).ipcSendCount ≤ maxSendsPerTick) _ _ h
  · intro q h0
    rw [((initial_counters h0).2 i).sends]
    exact Nat.zero_le _
  · intro q e u hq hle _ hu
    exact (rate_step (reachable_taskInv hq) hle hu).1

theorem not_replenished (h : ¬ IsTimer e.mcause) (s : Sys) : replenished P i s e = false := by
  rw [replenished, visitPoint_none (periodPoint_none h)]
  rfl

end

/-- Along every run from a reachable state: the counter of a task never exceeds the limit, the
sends of the task that succeed are at most the limit for the start and for each tick that finds
the task `Ready` or `Running`, and at most the limit between two ticks. -/
theorem ipc_rate_limited {P : Platform} {s v : Sys} {es : List TrapEvent}
    (hr : Reachable (kernel P) anyStep s) (h : run (kernel P) s es = .ok v) (i : TaskIndex) :
    (v.tasks i).ipcSendCount ≤ maxSendsPerTick ∧
      tally (kernel P) (sendOk P i) s es ≤
        maxSendsPerTick * (1 + tally (kernel P) (replenished P i) s es) ∧
      ((∀ e ∈ es, ¬ IsTimer e.mcause) →
        tally (kernel P) (sendOk P i) s es ≤ maxSendsPerTick) := by
  have hend := reachable_rate (hr.after (run_anyStep h)) i
  have hbucket : tally (kernel P) (sendOk P i) s es + (s.tasks i).ipcSendCount ≤
      maxSendsPerTick * tally (kernel P) (replenished P i) s es + (v.tasks i).ipcSendCount := by
    apply run_bucket (I := fun q => TaskInv q ∧ (q.tasks i).ipcSendCount ≤ maxSendsPerTick)
      (fun q => (q.tasks i).ipcSendCount) _ ⟨reachable_taskInv hr, reachable_rate hr i⟩ h
    rintro q e u ⟨hinv, hle⟩ hu
    obtain ⟨hbounded, hpaid⟩ := rate_step hinv hle hu
    exact ⟨⟨taskInv_trap hinv hu, hbounded⟩, hpaid⟩
  have hallowance : tally (kernel P) (sendOk P i) s es ≤
      maxSendsPerTick * (1 + tally (kernel P) (replenished P i) s es) := by
    rw [Nat.mul_add]
    omega
  refine ⟨hend, hallowance, ?_⟩
  intro hquiet
  rwa [tally_eq_zero fun e he q => not_replenished (hquiet e he) q] at hallowance

/-- A send that succeeds, within the allowance. -/
theorem first_send_allowed : ∃ s v,
    run (kernel referencePlatform) s [sendFirst] = .ok v ∧
      tally (kernel referencePlatform) (sendOk referencePlatform 0) s [sendFirst] = 1 ∧
      1 ≤ maxSendsPerTick ∧ (v.tasks 0).ipcSendCount ≤ maxSendsPerTick := by
  obtain ⟨s, hs, ht⟩ := endsWith_iff.mp (show endsWith (scenario bootInit [])
    (fun s => endsWith (run (kernel referencePlatform) s [sendFirst]) fun _ =>
      decide (tally (kernel referencePlatform) (sendOk referencePlatform 0) s [sendFirst] = 1)) =
    true by decide +kernel)
  obtain ⟨v, hv, htally⟩ := endsWith_iff.mp ht
  have hone := of_decide_eq_true htally
  obtain ⟨hcount, -, hbetween⟩ := ipc_rate_limited (booted_reachable hs) hv 0
  exact ⟨s, v, hv, hone, hone ▸ hbetween (by decide), hcount⟩

end KernelRateLimit
