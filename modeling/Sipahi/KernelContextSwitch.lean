import Sipahi.KernelResume
import Sipahi.KernelReference

/-!
# Context-switch transparency

The kernel is run together with a record of what each task had in its registers when it trapped
last. There is one trap frame and `switch_context` does not exchange it, so a task that is
switched back to finds the caller-saved registers of the task that trapped in between. `gp` and
`tp` are neither saved nor cleared anywhere: a task that starts finds what the one before it left.
-/
namespace KernelContextSwitch

open KernelTypes KernelState KernelTrapFrame KernelScheduler KernelSyscall KernelTrap
open KernelEvolution KernelSelection KernelBoot KernelTaskInvariants KernelResume KernelReference
open RiscvHart GuardedExecution

/-- The kernel with the context each task trapped in last, if it has trapped at all, and the
registers that boot started the first task with. -/
structure Tracked where
  sys : Sys
  trapped : TaskIndex → Option UserContext
  started : Reg → ℕ

def trackedTrap (P : Platform) (x : Tracked) (e : TrapEvent) : Except Halt Tracked := do
  let v ← trap P x.sys e
  .ok
    { x with
      sys := v
      trapped := Function.update x.trapped x.sys.currentTask
        (some (ownContext e (trapResult P x.sys e))) }

def tracked (P : Platform) : Machine Tracked TrapEvent Halt where
  Initial := fun x => (kernel P).Initial x.sys ∧ (x.trapped = fun _ => none) ∧
    x.started = x.sys.hart.regs
  step := trackedTrap P

theorem trackedTrap_ok {P : Platform} {x y : Tracked} {e : TrapEvent}
    (h : trackedTrap P x e = .ok y) : trap P x.sys e = .ok y.sys ∧
      y.trapped = Function.update x.trapped x.sys.currentTask
        (some (ownContext e (trapResult P x.sys e))) ∧ y.started = x.started := by
  obtain ⟨v, hv, hy⟩ := bind_eq_ok.mp h
  cases hy
  exact ⟨hv, rfl, rfl⟩

theorem tracked_reachable {P : Platform} {guard : Tracked → TrapEvent → Prop} {x : Tracked}
    (h : Reachable (tracked P) guard x) : Reachable (kernel P) anyStep x.sys := by
  refine reachable_invariant (M := tracked P) (I := fun x => Reachable (kernel P) anyStep x.sys)
    (fun y h0 => ?_) (fun y e z _ hr _ hs => ?_) h
  · exact .initial h0.1
  · exact hr.next trivial (trackedTrap_ok hs).1

/-- A task continues in the context it trapped in; one that has never trapped starts with nothing
in its registers but the stack pointer and what boot left in `gp` and `tp`. -/
def OwnRegisters (x : Tracked) : Prop :=
  match x.trapped x.sys.currentTask with
  | some context => Resumes x.sys.hart context
  | none => StartsFresh x.sys.hart x.sys.current.entry x.sys.current.stackTop ∧
      ∀ r, r.reserved = true → x.sys.hart.regs r = x.started r

/-- The trap does not hand the CPU through `switch_context` to a task that has trapped before,
unless it is an interrupt that gives it back to the task it interrupted. When a task starts, the one
before it has left `gp` and `tp` alone. -/
def NoReentry (P : Platform) (x : Tracked) (e : TrapEvent) : Prop :=
  ∀ q next, SelectsAt P x.sys e q → switchTarget q x.sys.currentTask = some next →
    (next ≠ x.sys.currentTask ∧ x.trapped next = none ∧
      ∀ r, r.reserved = true → e.regs r = x.started r) ∨
      next = x.sys.currentTask ∧ isEcall e.mcause = false

/-! ## Tasks that have not trapped yet -/

def FreshUntilTrapped (P : Platform) (x : Tracked) : Prop :=
  ∀ i, (x.sys.tasks i).state ≠ .dead → x.trapped i = none →
    FreshContext P x.sys.hart i (x.sys.tasks i)

theorem freshContext_config {P : Platform} {h k : Hart Slot} {i : TaskIndex} {t u : Task}
    (hf : FreshContext P h i t)
    (hmem : ∀ offset, k.mem (.context i offset) = h.mem (.context i offset))
    (hc : config u = config t) : FreshContext P k i u := by
  intro offset
  rw [hmem, config_entry hc, config_stackTop hc]
  exact hf offset

theorem enterFirstTask_mem (P : Platform) (h : Hart Slot) (best : TaskIndex) :
    (enterFirstTask P h best).mem = h.mem := rfl

theorem freshUntilTrapped_initial {P : Platform} {x : Tracked} (h : (tracked P).Initial x) :
    FreshUntilTrapped P x := by
  obtain ⟨q, best, hs⟩ := initial_started h.1
  obtain ⟨pmp, hx⟩ := hs.state
  intro i hd _
  rw [hx] at hd ⊢
  by_cases hi : i = best
  · subst i
    have hf := booted_alive hs.booted (i := best) (by rw [hs.ready]; simp)
    exact freshContext_config hf.context (fun _ => by rw [enterFirstTask_mem]) (by simp [config])
  · have hf := booted_alive hs.booted (i := i) (by simpa [hi] using hd)
    exact freshContext_config hf.context (fun _ => by rw [enterFirstTask_mem]) (by simp [hi])

theorem freshUntilTrapped_step {P : Platform} {x y : Tracked} {e : TrapEvent}
    (hi : TaskInv x.sys) (hf : FreshUntilTrapped P x) (h : (tracked P).step x e = .ok y) :
    FreshUntilTrapped P y := by
  obtain ⟨hv, htr, -⟩ := trackedTrap_ok h
  have ht := trap_sameTable hi hv
  intro i hd hn
  have hne : i ≠ x.sys.currentTask := by
    rintro rfl
    rw [htr] at hn
    simp at hn
  rw [htr, Function.update_of_ne hne] at hn
  rw [Ne, ht.dead] at hd
  exact freshContext_config (hf i hd hn) (fun o => trap_contexts hi hv hne o) (ht.config i)

theorem reachable_freshUntilTrapped {P : Platform} {guard : Tracked → TrapEvent → Prop}
    {x : Tracked} (h : Reachable (tracked P) guard x) : FreshUntilTrapped P x :=
  reachable_invariant (fun _ h0 => freshUntilTrapped_initial h0)
    (fun _ _ _ hr hf _ hs => freshUntilTrapped_step (reachable_taskInv (tracked_reachable hr)) hf hs) h

/-! ## Transparency -/

theorem ownRegisters_some {x : Tracked} {context : UserContext}
    (ht : x.trapped x.sys.currentTask = some context) (h : Resumes x.sys.hart context) :
    OwnRegisters x := by
  rw [OwnRegisters]
  rw [ht]
  exact h

theorem ownRegisters_none {x : Tracked} (ht : x.trapped x.sys.currentTask = none)
    (h : StartsFresh x.sys.hart x.sys.current.entry x.sys.current.stackTop)
    (hres : ∀ r, r.reserved = true → x.sys.hart.regs r = x.started r) : OwnRegisters x := by
  rw [OwnRegisters]
  rw [ht]
  exact ⟨h, hres⟩

theorem ownRegisters_step {P : Platform} {x y : Tracked} {e : TrapEvent} (hi : TaskInv x.sys)
    (hf : FreshUntilTrapped P x) (hg : NoReentry P x e) (h : (tracked P).step x e = .ok y) :
    OwnRegisters y := by
  obtain ⟨hv, htr, hst⟩ := trackedTrap_ok h
  have htable := trap_sameTable hi hv
  obtain ⟨v, trapped, started⟩ := y
  dsimp only at hv htr hst htable
  subst trapped started
  cases trap_ends hi hv with
  | @stays w he hcur _ =>
    have hout := (leaveHandler_sameKernel P w (some (trapResult P x.sys e))).currentTask
    refine ownRegisters_some ?_ (he.resumes (trapResult P x.sys e))
    simp [hout, hcur]
  | @switches q next w flow r hsel he hcur ht htarget hs hflow =>
    have hnext := switched_current (r := r) hs
    rcases hg q next hsel htarget with ⟨hne, hnone, hleft⟩ | ⟨rfl, hint⟩
    · have halive := selectable_alive (selectNext_some (switchTarget_some htarget).2.1).1
      rw [Ne, ht.dead] at halive
      have hstart := switch_startsFresh he hs hflow hne (hf next halive hnone)
      refine ownRegisters_none (by simp [hnext, hne, hnone]) ?_
        fun r hr => (switch_reserved he hs hr).trans (hleft r hr)
      have hcfg := htable.config next
      rw [Sys.current]
      dsimp only
      rw [hnext, config_entry hcfg, config_stackTop hcfg]
      exact hstart
    · refine ownRegisters_some ?_ (switch_toItself he hs hflow hint (trapResult P x.sys e))
      simp [hnext]

/-- Every trap of a run in which the CPU never goes back through `switch_context` to a task that
has trapped before ends in U-mode with the current task's own registers. -/
theorem context_switch_transparent {P : Platform} {x y : Tracked} {e : TrapEvent}
    (h : Reachable (tracked P) (NoReentry P) x) (hg : NoReentry P x e)
    (hs : (tracked P).step x e = .ok y) : OwnRegisters y :=
  ownRegisters_step (reachable_taskInv (tracked_reachable h)) (reachable_freshUntilTrapped h) hg hs

/-! ## Runs without policy actions -/

/-- The tick consults the policy for a watchdog timeout or an exhausted budget. -/
def tickConsultsPolicy (P : Platform) (s : Sys) : Bool :=
  match tickBeforeWatchdog s with
  | .error _ => true
  | .ok q =>
    (List.finRange maxTasks).any (fun i =>
      decide (i.val < q.taskCount) && watchdogTimesOut (q.tasks i)) ||
    match watchdogPhase P q with
    | .error _ => true
    | .ok q => budgetExhausts (q.tasks s.currentTask)

/-- A timer interrupt or a `SYS_YIELD` that triggers no policy action. -/
def policyFree (P : Platform) (s : Sys) (e : TrapEvent) : Bool :=
  match enterHandler P s e with
  | .error _ => false
  | .ok (u, _) =>
    if IsTimer e.mcause then
      !deadlineMissed u e.mtime && !tickConsultsPolicy P (armNextTick u e.mtime)
    else
      decide (IsEcall e.mcause ∧ e.regs .a7 = sysYieldId) && !kickTooEarly u.current

/-- A periodic task of one tick per period above a background task. -/
def periodicPair : List BootCall := [legacyTask 4 1 100000 3, legacyTask 8 1 100000000 0]

/-- A tick that finds the given value in every register but `gp` and `tp`. -/
def tickWith (value : ℕ) : TrapEvent :=
  timerAt 0x80001000 fun r => if r.reserved then 0 else value

/-- The periodic task runs in ticks 1 and 4 and is suspended by both. -/
def twoPeriods : List TrapEvent :=
  [tickWith 0xA, tickWith 0xB, tickWith 0xB, tickWith 0xA]

/-- Boot with these calls, then take these traps with the record kept. -/
def trackedScenario (calls : List BootCall) (events : List TrapEvent) : Except Halt Tracked := do
  let s ← boot referencePlatform resetHart 0 (fun _ => 0) calls
  run (tracked referencePlatform) ⟨s, fun _ => none, s.hart.regs⟩ events

theorem trackedScenario_reachable {calls : List BootCall} {events : List TrapEvent} {x : Tracked}
    (h : trackedScenario calls events = .ok x) :
    Reachable (tracked referencePlatform) anyStep x := by
  obtain ⟨s, hs, hr⟩ := bind_eq_ok.mp h
  exact ⟨⟨s, fun _ => none, s.hart.regs⟩, ⟨⟨_, _, _, _, hs⟩, rfl, rfl⟩, run_anyStep hr⟩

theorem trackedScenario_append {calls : List BootCall} (first : List TrapEvent) {e : TrapEvent}
    {y : Tracked} (h : trackedScenario calls (first ++ [e]) = .ok y) :
    ∃ x, trackedScenario calls first = .ok x ∧ (tracked referencePlatform).step x e = .ok y := by
  obtain ⟨s, hs, hr⟩ := bind_eq_ok.mp h
  obtain ⟨x, hx, hy⟩ := run_append_ok.mp hr
  rw [run_singleton] at hy
  exact ⟨x, bind_eq_ok.mpr ⟨s, hs, hx⟩, hy⟩

/-- The first tick exhausts the periodic task and starts the background task. -/
theorem context_switch_transparent_at_first_switch : ∃ x y,
    Reachable (tracked referencePlatform) (NoReentry referencePlatform) x ∧
      (tracked referencePlatform).step x (tickWith 0xA) = .ok y ∧
      y.sys.currentTask ≠ x.sys.currentTask ∧ OwnRegisters y := by
  obtain ⟨y, hy, hcur⟩ := endsWith_iff.mp (show endsWith
    (trackedScenario periodicPair [tickWith 0xA]) (fun y => decide (y.sys.currentTask = 1)) = true
    by decide +kernel)
  obtain ⟨x, hx, hs⟩ := trackedScenario_append [] hy
  obtain ⟨x', hx', hold⟩ := endsWith_iff.mp (show endsWith (trackedScenario periodicPair [])
    (fun x => decide (x.sys.currentTask = 0 ∧ x.started .gp = 0 ∧ x.started .tp = 0)) = true
      by decide +kernel)
  obtain rfl : x = x' := Except.ok.inj (hx.symm.trans hx')
  obtain ⟨s, hboot, hnil⟩ := bind_eq_ok.mp hx
  cases hnil
  have hr : Reachable (tracked referencePlatform) (NoReentry referencePlatform)
      ⟨s, fun _ => none, s.hart.regs⟩ := .initial ⟨⟨_, _, _, _, hboot⟩, rfl, rfl⟩
  obtain ⟨hold, hgp, htp⟩ := of_decide_eq_true hold
  have hg : NoReentry referencePlatform ⟨s, fun _ => none, s.hart.regs⟩ (tickWith 0xA) := by
    intro q next _ _
    by_cases hn : next = s.currentTask
    · exact Or.inr ⟨hn, rfl⟩
    · refine Or.inl ⟨hn, rfl, ?_⟩
      rintro ⟨⟩ hres <;> first | exact hgp.symm | exact htp.symm | cases hres
  refine ⟨_, y, hr, hs, ?_, context_switch_transparent hr hg hs⟩
  rw [of_decide_eq_true hcur, show s.currentTask = 0 from hold]
  decide

/-- Two ticks without a policy action give the CPU back to the periodic task, which trapped with
`0xA` in every register and continues with `0xB` in `t0`. -/
theorem resumed_task_has_foreign_registers :
    ¬ ∀ (P : Platform) (x₀ x y : Tracked) (e : TrapEvent), Reachable (tracked P) anyStep x₀ →
      Execution (tracked P) (fun z f => policyFree P z.sys f = true) x₀ x →
      policyFree P x.sys e = true → (tracked P).step x e = .ok y → OwnRegisters y := by
  intro h
  obtain ⟨y, hy, hty⟩ := endsWith_iff.mp (show endsWith
    (trackedScenario periodicPair ((twoPeriods ++ [tickWith 0xB]) ++ [tickWith 0xB]))
    (fun y => decide ((y.trapped y.sys.currentTask).map (fun c => c.regs .t0) = some 0xA ∧
      y.sys.hart.regs .t0 = 0xB)) = true by decide +kernel)
  obtain ⟨x, hx, hxy⟩ := trackedScenario_append _ hy
  obtain ⟨x₀, hx₀, hx₀x⟩ := trackedScenario_append _ hx
  have hfree : ∀ es z, trackedScenario periodicPair es = .ok z →
      endsWith (trackedScenario periodicPair es)
        (fun z => policyFree referencePlatform z.sys (tickWith 0xB)) = true →
      policyFree referencePlatform z.sys (tickWith 0xB) = true := by
    intro es z hz ht
    rw [hz] at ht
    exact ht
  have hown := h _ x₀ x y (tickWith 0xB) (trackedScenario_reachable hx₀)
    (.tail (.refl _) (hfree _ x₀ hx₀ (by decide +kernel)) hx₀x)
    (hfree _ x hx (by decide +kernel)) hxy
  obtain ⟨hctx, ht0⟩ := of_decide_eq_true hty
  obtain ⟨c, hc, hcr⟩ := Option.map_eq_some_iff.mp hctx
  rw [OwnRegisters] at hown
  rw [hc] at hown
  have := hown.regs .t0
  omega

end KernelContextSwitch
