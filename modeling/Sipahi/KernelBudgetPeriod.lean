import Sipahi.KernelAccounting

/-!
# The budget of a period

From a period reset, or from boot, to the next reset of the task: the ticks that charge it against
the budget it started with.
-/
namespace KernelBudgetPeriod

open KernelTypes KernelState KernelScheduler KernelTrap KernelEvolution KernelSelection KernelBoot
open KernelReference KernelDegradation KernelFrame KernelAccounting GuardedExecution

/-- The next tick ends the period of the task. -/
def periodEnds (t : Task) : Bool :=
  decide (0 < t.periodTicks) && decide (t.periodTicks ≤ wrappingAdd32 t.periodCounter 1)

/-- The budget with which a trap starts a new period of the task. -/
def periodReset (P : Platform) (i : TaskIndex) (s : Sys) (e : TrapEvent) : Option ℕ :=
  (periodPoint P s e).bind fun x =>
    if i.val < x.taskCount ∧ periodEnds (x.tasks i) = true then some (x.tasks i).budgetCycles
    else none

/-- The recovery from degraded mode gives the task a new budget. -/
def rearmed (P : Platform) (i : TaskIndex) (s : Sys) (e : TrapEvent) : Bool :=
  (periodPoint P s e).any fun x =>
    let y := periodPhase x
    recovers y && decide (i.val < y.taskCount ∧ 2 ≤ (y.tasks i).dal ∧
      (y.tasks i).state = .suspended)

/-- The tick finds the task current and `Running` at the budget phase. -/
def charged (P : Platform) (i : TaskIndex) (s : Sys) (e : TrapEvent) : Bool :=
  (budgetPoint P s e).any fun b => decide (b.currentTask = i ∧ (b.tasks i).state = .running)

/-- `v` is reached inside an interval of task `i` that started with the budget `B`, after `n`
charging ticks: no reset and no recovery of the task since, and its budget never zero. -/
inductive BudgetInterval (P : Platform) (i : TaskIndex) : ℕ → ℕ → Sys → Prop where
  | created {s} : (kernel P).Initial s → BudgetInterval P i (s.tasks i).budgetCycles 0 s
  | reset {B s e v} : Reachable (kernel P) anyStep s → periodReset P i s e = some B →
      rearmed P i s e = false → trap P s e = .ok v → (v.tasks i).budgetCycles ≠ 0 →
      BudgetInterval P i B (charged P i s e).toNat v
  | step {B n s e v} : BudgetInterval P i B n s → periodReset P i s e = none →
      rearmed P i s e = false → trap P s e = .ok v → (v.tasks i).budgetCycles ≠ 0 →
      BudgetInterval P i B (n + (charged P i s e).toNat) v

/-- The account after `n` charges: what is left, and that nothing left means not selectable. -/
structure Spent (B n : ℕ) (t : Task) : Prop where
  remaining : t.remainingCycles = B - n * cyclesPerTick
  stopped : B ≤ n * cyclesPerTick → isSelectableByScheduler t.state = false
  bounded : n * cyclesPerTick < B + cyclesPerTick

section

variable {P : Platform} {i : TaskIndex} {s x z b q v : Sys} {e : TrapEvent} {B n : ℕ}

theorem cyclesPerTick_pos : 0 < cyclesPerTick := by decide

theorem Spent.kept {t u : Task} (h : Spent B n t) (hr : u.remainingCycles = t.remainingCycles)
    (hs : isSelectableByScheduler u.state = true → isSelectableByScheduler t.state = true) :
    Spent B n u where
  remaining := hr.trans h.remaining
  stopped := fun hB => by
    rw [Bool.eq_false_iff]
    intro hu
    rw [h.stopped hB] at hs
    exact absurd (hs hu) (by simp)
  bounded := h.bounded

theorem spent_zero {t : Task} (hB : 0 < B) (h : t.remainingCycles = B) : Spent B 0 t where
  remaining := by rw [Nat.zero_mul, Nat.sub_zero, h]
  stopped := fun hle => by omega
  bounded := by
    have := cyclesPerTick_pos
    omega

theorem Spent.charge {t u : Task} (h : Spent B n t)
    (ht : isSelectableByScheduler t.state = true)
    (hr : u.remainingCycles = t.remainingCycles - cyclesPerTick)
    (hs : isSelectableByScheduler u.state = true → t.remainingCycles - cyclesPerTick ≠ 0) :
    Spent B (n + 1) u := by
  have hleft : n * cyclesPerTick < B := by
    by_contra hB
    rw [h.stopped (by omega)] at ht
    cases ht
  have hsucc : (n + 1) * cyclesPerTick = n * cyclesPerTick + cyclesPerTick := Nat.succ_mul ..
  constructor
  · rw [hr, h.remaining, hsucc]
    omega
  · intro hB
    rw [Bool.eq_false_iff]
    intro hu
    apply hs hu
    rw [h.remaining]
    omega
  · rw [hsucc]
    omega

/-! ## One task through the phases -/

theorem periodTask_running {t : Task} (h : periodEnds t = false) :
    (periodTask t).remainingCycles = t.remainingCycles ∧ (periodTask t).state = t.state := by
  rw [periodTask]
  split
  · rename_i hpos
    dsimp only
    split
    · rename_i hend
      simp [periodEnds, hpos, hend] at h
    · exact ⟨rfl, rfl⟩
  · exact ⟨rfl, rfl⟩

theorem periodTask_ended {t : Task} (h : periodEnds t = true) :
    (periodTask t).remainingCycles = t.budgetCycles := by
  simp only [periodEnds, Bool.and_eq_true, decide_eq_true_eq] at h
  rw [periodTask, if_pos h.1]
  dsimp only
  rw [if_pos h.2]

theorem periodPhase_at (x : Sys) (i : TaskIndex) : (periodPhase x).tasks i =
    if i.val < x.taskCount then periodTask (x.tasks i) else x.tasks i := rfl

theorem recovery_keeps (y : Sys) (i : TaskIndex)
    (h : (recovers y && decide (i.val < y.taskCount ∧ 2 ≤ (y.tasks i).dal ∧
      (y.tasks i).state = .suspended)) = false) :
    (tryRecoverFromDegrade y).tasks i = y.tasks i := by
  rw [tryRecoverFromDegrade]
  split
  · rename_i hrec
    simp only [log_tasks]
    split
    · rename_i hin
      rw [recoverTask, if_neg]
      intro hwake
      simp [hrec, hin, hwake] at h
    · rfl
  · rfl

theorem chargeTick_remaining (t : Task) :
    (chargeTick t).remainingCycles = t.remainingCycles - cyclesPerTick := by
  rw [chargeTick]

theorem chargeTick_exhausted {t : Task} (h : t.remainingCycles - cyclesPerTick = 0) :
    (chargeTick t).state = .suspended := by
  simp only [chargeTick, h, if_true]

theorem spent_tick (hz : Spent B n (z.tasks i)) (hb : watchdogPhase P z = .ok b)
    (hq : budgetPhase P b b.currentTask = .ok q)
    (hexit : ∀ i, counters (v.tasks i) = counters (q.tasks i)) (hv : Restrains q v)
    (hbudget : (v.tasks i).budgetCycles ≠ 0) :
    Spent B (n + (decide (b.currentTask = i ∧ (b.tasks i).state = .running)).toNat)
      (v.tasks i) := by
  have hremaining : (v.tasks i).remainingCycles = (q.tasks i).remainingCycles :=
    view_field (hexit i) Task.remainingCycles fun _ => rfl
  have hwatched : Spent B n (b.tasks i) :=
    hz.kept ((watchdogPhase_kept hb).field Task.remainingCycles (fun _ => rfl) i)
      ((watchdogRun_restrains hb).selectable i)
  have hrestrains := (budgetPhase_restrains hq).trans hv
  by_cases hcharged : b.currentTask = i ∧ (b.tasks i).state = .running
  · obtain ⟨rfl, hrun⟩ := hcharged
    have hpos : 0 < (b.tasks b.currentTask).budgetCycles := by
      have := hrestrains.budget b.currentTask
      omega
    have hactive : budgetActive (b.tasks b.currentTask) = true := by
      simp [budgetActive, hpos, hrun]
    obtain ⟨hcounters, hstate⟩ := budgetPhase_self hactive hq
    have hspent := (view_field hcounters Task.remainingCycles fun _ => rfl).trans
      (chargeTick_remaining _)
    simp only [hrun, and_self, decide_true, Bool.toNat_true]
    refine hwatched.charge (by simp [isSelectableByScheduler, hrun])
      (hremaining.trans hspent) fun hsel hzero => ?_
    have hstopped := hstate (hv.selectable _ hsel)
    rw [chargeTick_exhausted hzero] at hstopped
    cases hstopped
  · simp only [hcharged, decide_false, Bool.toNat_false, Nat.add_zero]
    refine hwatched.kept (hremaining.trans ?_) (hrestrains.selectable i)
    by_cases hi : b.currentTask = i
    · subst hi
      have hidle : budgetActive (b.tasks b.currentTask) = false := by
        simp only [budgetActive, Bool.and_eq_false_iff, beq_eq_false_iff_ne]
        exact Or.inr fun hrun => hcharged ⟨rfl, hrun⟩
      rw [budgetPhase_idle hidle hq]
    · exact view_field (budgetPhase_other (Ne.symm hi) hq) Task.remainingCycles fun _ => rfl

theorem charged_tick (h : Ticks P s e x b q v) :
    charged P i s e = decide (b.currentTask = i ∧ (b.tasks i).state = .running) := by
  rw [charged, h.budgetPoint_eq]
  rfl

theorem spent_undisturbed (hx : Spent B n (x.tasks i)) (hpoint : periodPoint P s e = some x)
    (hreset : periodReset P i s e = none) (hrearm : rearmed P i s e = false) :
    Spent B n ((tryRecoverFromDegrade (periodPhase x)).tasks i) := by
  rw [rearmed, hpoint] at hrearm
  rw [recovery_keeps (periodPhase x) i hrearm, periodPhase_at]
  split
  · rename_i hin
    have hruns : periodEnds (x.tasks i) = false := by
      rw [Bool.eq_false_iff]
      intro hends
      rw [periodReset, hpoint, Option.bind_some, if_pos ⟨hin, hends⟩] at hreset
      cases hreset
    obtain ⟨hremaining, hstate⟩ := periodTask_running hruns
    exact hx.kept hremaining fun h => hstate ▸ h
  · exact hx

theorem spent_step (hs : Spent B n (s.tasks i)) (hreset : periodReset P i s e = none)
    (hrearm : rearmed P i s e = false) (h : trap P s e = .ok v)
    (hbudget : (v.tasks i).budgetCycles ≠ 0) :
    Spent B (n + (charged P i s e).toNat) (v.tasks i) := by
  rcases trap_tick_or_idle h with ⟨x, b, q, ht⟩ | ⟨hpoint, hrestrains, haccount⟩
  · have hx : Spent B n (x.tasks i) :=
      hs.kept (view_field (ht.entry i) Task.remainingCycles fun _ => rfl)
        (ht.entryRestrains.selectable i)
    rw [charged_tick ht]
    exact spent_tick (spent_undisturbed hx ht.period hreset hrearm) ht.watchdog ht.budget ht.exit
      ht.exitRestrains hbudget
  · have hidle : charged P i s e = false := by
      rw [charged, budgetPoint_none hpoint]
      rfl
    rw [hidle]
    exact hs.kept (view_field (haccount i) Task.remainingCycles fun _ => rfl)
      (hrestrains.selectable i)

theorem spent_reset (hB : 0 < B) (hreset : periodReset P i s e = some B)
    (hrearm : rearmed P i s e = false) (h : trap P s e = .ok v)
    (hbudget : (v.tasks i).budgetCycles ≠ 0) :
    Spent B (charged P i s e).toNat (v.tasks i) := by
  rcases trap_tick_or_idle h with ⟨x, b, q, ht⟩ | ⟨hpoint, -⟩
  · rw [periodReset, ht.period, Option.bind_some] at hreset
    split at hreset
    · rename_i hends
      rw [rearmed, ht.period] at hrearm
      have hz : Spent B 0 ((tryRecoverFromDegrade (periodPhase x)).tasks i) := by
        rw [recovery_keeps (periodPhase x) i hrearm, periodPhase_at, if_pos hends.1]
        exact spent_zero hB ((periodTask_ended hends.2).trans (Option.some.inj hreset))
      have hspent := spent_tick hz ht.watchdog ht.budget ht.exit ht.exitRestrains hbudget
      rwa [Nat.zero_add, ← charged_tick ht] at hspent
    · cases hreset
  · rw [periodReset, hpoint] at hreset
    cases hreset

theorem interval_spent (hB : 0 < B) (h : BudgetInterval P i B n v) : Spent B n (v.tasks i) := by
  induction h with
  | created h0 => exact spent_zero hB ((initial_counters h0).2 i).remaining
  | reset _ hreset hrearm htrap hbudget => exact spent_reset hB hreset hrearm htrap hbudget
  | step _ hreset hrearm htrap hbudget ih => exact spent_step (ih hB) hreset hrearm htrap hbudget

end

/-- `ceil(B / CYCLES_PER_TICK)`. -/
def ticksOfBudget (B : ℕ) : ℕ := (B + cyclesPerTick - 1) / cyclesPerTick

/-- A task is charged no more ticks than its budget pays for, and once it has used them up it is
not selectable. -/
theorem budget_never_exceeded {P : Platform} {i : TaskIndex} {B n : ℕ} {v : Sys} (hB : 0 < B)
    (h : BudgetInterval P i B n v) :
    n ≤ ticksOfBudget B ∧ (n = ticksOfBudget B → ¬ Selectable v i) := by
  have hspent := interval_spent hB h
  have hC := cyclesPerTick_pos
  have hbounded := hspent.bounded
  constructor
  · rw [ticksOfBudget, Nat.le_div_iff_mul_le hC]
    omega
  · intro hn hsel
    have hpaid : B ≤ n * cyclesPerTick := by
      have hlt := Nat.lt_mul_div_succ (B + cyclesPerTick - 1) hC
      rw [← ticksOfBudget, ← hn, Nat.mul_comm, Nat.succ_mul] at hlt
      omega
    have hstate := hsel.2
    rw [hspent.stopped hpaid] at hstate
    cases hstate

/-- Go on with an interval along these traps, counting its charges. -/
def followInterval (P : Platform) (i : TaskIndex) : ℕ → Sys → List TrapEvent → Option (ℕ × Sys)
  | n, s, [] => some (n, s)
  | n, s, e :: es =>
    if periodReset P i s e = none ∧ rearmed P i s e = false then do
      let v ← (trap P s e).toOption
      if (v.tasks i).budgetCycles ≠ 0 then
        followInterval P i (n + (charged P i s e).toNat) v es
      else none
    else none

theorem followInterval_interval {P : Platform} {i : TaskIndex} {B n m : ℕ} {s v : Sys}
    {es : List TrapEvent} (hs : BudgetInterval P i B n s)
    (h : followInterval P i n s es = some (m, v)) : BudgetInterval P i B m v := by
  induction es generalizing n s with
  | nil =>
    cases h
    exact hs
  | cons e es ih =>
    rw [followInterval] at h
    split at h
    · rename_i hquiet
      obtain ⟨u, hu, h⟩ := Option.bind_eq_some_iff.mp h
      split at h
      · rename_i hbudget
        exact ih (.step hs hquiet.1 hquiet.2 (toOption_some.mp hu) hbudget) h
      · cases h
    · cases h

/-- Three ticks use up a budget of 300000 cycles, ahead of the end of the period. -/
theorem budget_used_up : ∃ v, BudgetInterval referencePlatform 0 300000 3 v ∧
    ticksOfBudget 300000 = 3 ∧ ¬ Selectable v 0 := by
  obtain ⟨s, hs, ht⟩ := endsWith_iff.mp (show endsWith
    (boot referencePlatform resetHart 0 (fun _ => 0) [legacyTask 4 1 300000 10])
    (fun s => decide ((s.tasks 0).budgetCycles = 300000) &&
      (followInterval referencePlatform 0 0 s [tick, tick, tick]).any fun r => r.1 == 3) = true
    by decide +kernel)
  rw [Bool.and_eq_true, decide_eq_true_eq, Option.any_eq_true] at ht
  obtain ⟨hB, ⟨n, v⟩, hv, hn⟩ := ht
  obtain rfl : n = 3 := beq_iff_eq.mp hn
  have hstart : BudgetInterval referencePlatform 0 300000 0 s :=
    hB ▸ BudgetInterval.created ⟨_, _, _, _, hs⟩
  have hinterval := followInterval_interval hstart hv
  have hpaid : ticksOfBudget 300000 = 3 := by decide
  exact ⟨v, hinterval, hpaid, (budget_never_exceeded (by decide) hinterval).2 hpaid.symm⟩

end KernelBudgetPeriod
