import Sipahi.KernelBudgetPeriod
import Sipahi.KernelBudgets
import Sipahi.KernelResume
import Sipahi.RunHistory

/-!
# Releases and supply

The period counters of all tasks run in step with the timer, so a task is released at exactly every
multiple of its period. Between releases the budget pays for what it runs, which bounds what any run
can supply to the task.
-/
namespace KernelSupply

open KernelTypes KernelState KernelScheduler KernelTrap KernelEvolution KernelSelection KernelBoot
open KernelTaskInvariants KernelResume KernelReference KernelFrame KernelAccounting KernelBudgets
open KernelDegradation KernelBudgetPeriod GuardedExecution RunHistory

/-! ## Releases -/

/-- A tick of the timer. -/
def timerTick : Sys → TrapEvent → Bool := fun _ e => decide (IsTimer e.mcause)

/-- The trap starts a new period of the task. -/
def releases (P : Platform) (i : TaskIndex) (s : Sys) (e : TrapEvent) : Bool :=
  (periodReset P i s e).isSome

/-- A period counter within its period. -/
def InPeriod (t : Task) : Prop := t.periodCounter < t.periodTicks ∧ t.periodTicks ≤ u32Max

section

variable {P : Platform} {i : TaskIndex} {s v x b q : Sys} {e : TrapEvent} {es : List TrapEvent}

theorem periodEnds_iff {t : Task} (h : InPeriod t) :
    periodEnds t = decide (t.periodCounter + 1 = t.periodTicks) := by
  obtain ⟨hlt, hmax⟩ := h
  have hwrap : wrappingAdd32 t.periodCounter 1 = t.periodCounter + 1 := by
    rw [wrappingAdd32]
    exact Nat.mod_eq_of_lt (by simp only [u32Max] at hmax; omega)
  rw [periodEnds, hwrap]
  have hpos : 0 < t.periodTicks := by omega
  simp only [hpos, decide_true, Bool.true_and]
  apply decide_eq_decide.mpr
  omega

theorem periodTask_counter {t : Task} (h : InPeriod t) :
    (periodTask t).periodCounter + t.periodTicks * (periodEnds t).toNat = t.periodCounter + 1 := by
  have hends := periodEnds_iff h
  obtain ⟨hlt, hmax⟩ := h
  have hpos : 0 < t.periodTicks := by omega
  have hwrap : wrappingAdd32 t.periodCounter 1 = t.periodCounter + 1 := by
    rw [wrappingAdd32]
    exact Nat.mod_eq_of_lt (by simp only [u32Max] at hmax; omega)
  rw [hends, periodTask, if_pos hpos, hwrap]
  dsimp only
  split
  · rename_i hfull
    have heq : t.periodCounter + 1 = t.periodTicks := by omega
    simp [heq]
  · rename_i hroom
    have hne : t.periodCounter + 1 ≠ t.periodTicks := by omega
    simp [hne]

theorem recovery_counter (y : Sys) (i : TaskIndex) :
    ((tryRecoverFromDegrade y).tasks i).periodCounter = (y.tasks i).periodCounter := by
  rw [tryRecoverFromDegrade]
  split
  · simp only [log_tasks]
    split
    · rw [recoverTask]
      split <;> rfl
    · rfl
  · rfl

theorem chargeTick_counter (t : Task) : (chargeTick t).periodCounter = t.periodCounter := by
  rw [chargeTick]

theorem budgetPhase_counter {old : TaskIndex} (h : budgetPhase P b old = .ok q) :
    (q.tasks i).periodCounter = (b.tasks i).periodCounter := by
  by_cases hi : i = old
  · subst hi
    cases hactive : budgetActive (b.tasks i) with
    | true =>
      have hself := view_field (budgetPhase_self hactive h).1 Task.periodCounter fun _ => rfl
      exact hself.trans (chargeTick_counter _)
    | false => rw [budgetPhase_idle hactive h]
  · exact view_field (budgetPhase_other hi h) Task.periodCounter fun _ => rfl

theorem ticks_counter (h : Ticks P s e x b q v) (hin : i.val < s.taskCount) :
    (v.tasks i).periodCounter = (periodTask (x.tasks i)).periodCounter ∧
      releases P i s e = periodEnds (x.tasks i) := by
  have hcount : i.val < x.taskCount := by
    rw [h.entryRestrains.taskCount]
    exact hin
  constructor
  · have hwatched := (watchdogPhase_kept h.watchdog).field Task.periodCounter (fun _ => rfl) i
    calc (v.tasks i).periodCounter
        = (q.tasks i).periodCounter := view_field (h.exit i) Task.periodCounter fun _ => rfl
      _ = (b.tasks i).periodCounter := budgetPhase_counter h.budget
      _ = ((tryRecoverFromDegrade (periodPhase x)).tasks i).periodCounter := hwatched
      _ = (periodTask (x.tasks i)).periodCounter := by
        rw [recovery_counter, periodPhase_at, if_pos hcount]
  · rw [releases, periodReset, h.period, Option.bind_some]
    cases hends : periodEnds (x.tasks i) <;> simp [hcount]

theorem entry_inPeriod (h : Ticks P s e x b q v) (hs : InPeriod (s.tasks i)) :
    InPeriod (x.tasks i) := by
  rw [InPeriod, view_field (h.entry i) Task.periodCounter fun _ => rfl,
    view_field (h.entry i) Task.periodTicks fun _ => rfl]
  exact hs

theorem timer_reaches (hi : TaskInv s) (ht : IsTimer e.mcause) (h : trap P s e = .ok v) :
    periodPoint P s e ≠ none := by
  obtain ⟨u, args, w, r, hu, hw, rfl⟩ := trap_handled h
  cases hw with
  | fault hf => exact absurd ht.1 (by simp [hf.1])
  | ignored hno => exact absurd ht hno
  | syscall he => exact absurd ht (ecall_not_timer he)
  | timer _ htimer =>
    rw [timerInterrupt] at htimer
    obtain ⟨y, hy, htimer⟩ := bind_eq_ok.mp htimer
    obtain ⟨⟨z, flow⟩, hz, -⟩ := bind_eq_ok.mp htimer
    have hcount : y.taskCount ≠ 0 := by
      have hin := current_inTable hi
      rw [((entered_restrains hu).trans (deadlinePhase_restrains hy)).taskCount]
      omega
    rw [scheduleTimerTick, if_neg hcount] at hz
    obtain ⟨q, hq, -⟩ := bind_eq_ok.mp hz
    rw [tickPhases] at hq
    obtain ⟨a, ha, -⟩ := bind_eq_ok.mp hq
    rw [tickBeforeWatchdog] at ha
    obtain ⟨x, hx, -⟩ := bind_eq_ok.mp ha
    rw [periodPoint, tickEntry_eq ht hu hy, if_neg hcount, Option.bind_some, hx]
    simp [Except.toOption]

theorem trap_counter (hi : TaskInv s) (hcreated : (s.tasks i).state ≠ .dead)
    (hs : InPeriod (s.tasks i)) (h : trap P s e = .ok v) :
    InPeriod (v.tasks i) ∧ (v.tasks i).periodCounter +
      (s.tasks i).periodTicks * (releases P i s e).toNat =
        (s.tasks i).periodCounter + (timerTick s e).toNat := by
  have hperiod : (v.tasks i).periodTicks = (s.tasks i).periodTicks :=
    config_field Task.periodTicks (fun _ => rfl) ((trap_sameTable hi h).config i)
  rcases trap_tick_or_idle h with ⟨x, b, q, ht⟩ | ⟨hpoint, -, haccount⟩
  · obtain ⟨hcounter, hreleases⟩ := ticks_counter ht (hi.created i hcreated).1
    have hx := entry_inPeriod ht hs
    have hticks : (x.tasks i).periodTicks = (s.tasks i).periodTicks :=
      view_field (ht.entry i) Task.periodTicks fun _ => rfl
    have hstart : (x.tasks i).periodCounter = (s.tasks i).periodCounter :=
      view_field (ht.entry i) Task.periodCounter fun _ => rfl
    have hstep := periodTask_counter hx
    have hends := periodEnds_iff hx
    have htimer : timerTick s e = true := decide_eq_true ht.timer
    rw [hticks, hstart] at hstep
    rw [InPeriod, hperiod, hcounter, hreleases, htimer]
    refine ⟨⟨?_, hs.2⟩, hstep⟩
    rw [hticks, hstart] at hends
    have hlt := hs.1
    cases hwraps : periodEnds (x.tasks i) with
    | true =>
      rw [hwraps] at hstep
      simp only [Bool.toNat_true] at hstep
      omega
    | false =>
      rw [hwraps] at hends hstep
      have hne := of_decide_eq_false hends.symm
      simp only [Bool.toNat_false] at hstep
      omega
  · have hcounter : (v.tasks i).periodCounter = (s.tasks i).periodCounter :=
      view_field (haccount i) Task.periodCounter fun _ => rfl
    have hidle : releases P i s e = false := by
      rw [releases, periodReset, hpoint]
      rfl
    have htimer : timerTick s e = false :=
      decide_eq_false fun ht => timer_reaches hi ht h hpoint
    rw [InPeriod, hperiod, hcounter, hidle, htimer]
    exact ⟨hs, rfl⟩

theorem bootCall_counter {u : Sys} {c : BootCall} (hs : ∀ i, (s.tasks i).periodCounter = 0)
    (h : bootCall P s c = .ok u) (i : TaskIndex) : (u.tasks i).periodCounter = 0 := by
  rcases (bootCall_frame h).tasks i with hkept | hfresh
  · rw [hkept]
    exact hs i
  · exact hfresh

/-- A created task whose period counter is within the period `p`. -/
structure Timed (i : TaskIndex) (p : ℕ) (s : Sys) : Prop where
  inv : TaskInv s
  created : (s.tasks i).state ≠ .dead
  inPeriod : InPeriod (s.tasks i)
  period : (s.tasks i).periodTicks = p

theorem timed_trap {p : ℕ} (hs : Timed i p s) (h : trap P s e = .ok v) : Timed i p v where
  inv := taskInv_trap hs.inv h
  created := mt ((trap_sameTable hs.inv h).dead i).mp hs.created
  inPeriod := (trap_counter hs.inv hs.created hs.inPeriod h).1
  period := by
    have htable := (trap_sameTable hs.inv h).config i
    exact (config_field Task.periodTicks (fun _ => rfl) htable).trans hs.period

theorem run_timed {p : ℕ} (hs : Timed i p s) (h : run (kernel P) s es = .ok v) : Timed i p v :=
  run_keeps (I := Timed i p) (fun _ _ _ hx hu => timed_trap hx hu) hs h

theorem run_released {p : ℕ} (hs : Timed i p s) (h : run (kernel P) s es = .ok v) :
    tally (kernel P) (releases P i) s es =
      ((s.tasks i).periodCounter + tally (kernel P) timerTick s es) / p ∧
    (v.tasks i).periodCounter =
      ((s.tasks i).periodCounter + tally (kernel P) timerTick s es) % p := by
  apply run_wraps (I := Timed i p) (fun x => (x.tasks i).periodCounter) _ hs _ h
  · intro x e u hx hu
    have hu' := timed_trap hx hu
    have hstep := (trap_counter hx.inv hx.created hx.inPeriod hu).2
    rw [hx.period] at hstep
    refine ⟨hu', ?_, hstep⟩
    have hlt := hu'.inPeriod.1
    rwa [hu'.period] at hlt
  · have hlt := hs.inPeriod.1
    rwa [hs.period] at hlt

theorem dvd_succ_iff {n p : ℕ} (hp : 0 < p) : p ∣ n + 1 ↔ n % p + 1 = p := by
  have hsplit : n + 1 = p * (n / p) + (n % p + 1) := by
    have := Nat.div_add_mod n p
    omega
  have hlt := Nat.mod_lt n hp
  rw [hsplit, Nat.dvd_add_right (Nat.dvd_mul_right p _)]
  constructor
  · intro hdvd
    have := Nat.le_of_dvd (by omega) hdvd
    omega
  · intro heq
    rw [heq]

/-- A period that is zero, or that the 32-bit counter cannot reach. -/
def NeverEnds (t : Task) : Prop := t.periodTicks = 0 ∨ u32Max < t.periodTicks

theorem periodEnds_never {t : Task} (h : NeverEnds t) : periodEnds t = false := by
  have hcounter : wrappingAdd32 t.periodCounter 1 ≤ u32Max := by
    rw [wrappingAdd32, u32Max]
    omega
  rw [periodEnds, Bool.and_eq_false_iff, decide_eq_false_iff_not, decide_eq_false_iff_not]
  rcases h with hzero | hlarge <;> omega

theorem never_trap (hi : TaskInv s) (hcreated : (s.tasks i).state ≠ .dead)
    (hnever : NeverEnds (s.tasks i)) (h : trap P s e = .ok v) :
    NeverEnds (v.tasks i) ∧ releases P i s e = false := by
  constructor
  · rw [NeverEnds, config_field Task.periodTicks (fun _ => rfl) ((trap_sameTable hi h).config i)]
    exact hnever
  · rcases trap_tick_or_idle h with ⟨x, b, q, ht⟩ | ⟨hpoint, -, -⟩
    · rw [(ticks_counter ht (hi.created i hcreated).1).2]
      apply periodEnds_never
      rw [NeverEnds, view_field (ht.entry i) Task.periodTicks fun _ => rfl]
      exact hnever
    · rw [releases, periodReset, hpoint]
      rfl

theorem run_unreleased (hi : TaskInv s) (hcreated : (s.tasks i).state ≠ .dead)
    (hnever : NeverEnds (s.tasks i)) (h : run (kernel P) s es = .ok v) :
    tally (kernel P) (releases P i) s es = 0 := by
  have hbucket : tally (kernel P) (releases P i) s es + 0 ≤
      0 * tally (kernel P) (releases P i) s es + 0 := by
    apply run_bucket
      (I := fun x => TaskInv x ∧ (x.tasks i).state ≠ .dead ∧ NeverEnds (x.tasks i))
      (fun _ => 0) _ ⟨hi, hcreated, hnever⟩ h
    intro x e u hx hu
    obtain ⟨hx, hcreated, hnever⟩ := hx
    obtain ⟨hnever', hquiet⟩ := never_trap hx hcreated hnever hu
    have hcreated' := mt ((trap_sameTable hx hu).dead i).mp hcreated
    exact ⟨⟨taskInv_trap hx hu, hcreated', hnever'⟩, by simp [hquiet]⟩
  omega

theorem initial_counter (h : (kernel P).Initial s) (i : TaskIndex) :
    (s.tasks i).periodCounter = 0 := by
  obtain ⟨q, best, pmp, hq, -, rfl⟩ := initial_of_boot
    (I := fun q => ∀ i, (q.tasks i).periodCounter = 0) (fun _ _ _ _ => rfl) (by
      intro s u c hs h
      exact bootCall_counter hs h) h
  by_cases hi : i = best
  · subst hi
    simpa using hq i
  · simpa [hi] using hq i

theorem inPeriod_or_never (h : Reachable (kernel P) anyStep s)
    (hcreated : (s.tasks i).state ≠ .dead) : InPeriod (s.tasks i) ∨ NeverEnds (s.tasks i) := by
  have hall : (s.tasks i).state ≠ .dead → InPeriod (s.tasks i) ∨ NeverEnds (s.tasks i) := by
    apply reachable_invariant
      (I := fun x => (x.tasks i).state ≠ .dead → InPeriod (x.tasks i) ∨ NeverEnds (x.tasks i)) _ _ h
    · intro x h0 _
      rw [InPeriod, NeverEnds, initial_counter h0 i]
      omega
    · intro x e u hx hs _ hu hcu
      have hi := reachable_taskInv hx
      have hcx := mt ((trap_sameTable hi hu).dead i).mpr hcu
      rcases hs hcx with hin | hnever
      · exact .inl (trap_counter hi hcx hin hu).1
      · exact .inr (never_trap hi hcx hnever hu).1
  exact hall hcreated

end

/-- A task is released by exactly the ticks whose number is a multiple of its period, whatever else
happens in between. -/
theorem released_on_time {P : Platform} {s u v : Sys} {es : List TrapEvent} {e : TrapEvent}
    {i : TaskIndex} (h0 : (kernel P).Initial s) (hcreated : (s.tasks i).state ≠ .dead)
    (hperiod : 0 < (s.tasks i).periodTicks) (hmax : (s.tasks i).periodTicks ≤ u32Max)
    (hrun : run (kernel P) s es = .ok u) (htrap : trap P u e = .ok v) :
    releases P i u e = true ↔ IsTimer e.mcause ∧
      (s.tasks i).periodTicks ∣ es.countP (fun e => decide (IsTimer e.mcause)) + 1 := by
  have hi := reachable_taskInv (.initial h0 : Reachable (kernel P) anyStep s)
  have hzero := initial_counter h0 i
  have htimed : Timed i (s.tasks i).periodTicks s := ⟨hi, hcreated, ⟨hzero ▸ hperiod, hmax⟩, rfl⟩
  have hu := run_timed htimed hrun
  have hv := timed_trap hu htrap
  have hcounter := (run_released htimed hrun).2
  have hcount : tally (kernel P) timerTick s es =
      es.countP (fun e => decide (IsTimer e.mcause)) := tally_countP hrun
  have hstep := (trap_counter hu.inv hu.created hu.inPeriod htrap).2
  have hlt := hv.inPeriod.1
  rw [hzero, Nat.zero_add, hcount] at hcounter
  rw [hv.period] at hlt
  rw [hu.period, hcounter, timerTick] at hstep
  have hmod := Nat.mod_lt (es.countP fun e => decide (IsTimer e.mcause)) hperiod
  rw [dvd_succ_iff hperiod]
  by_cases ht : IsTimer e.mcause
  · cases hreleases : releases P i u e with
    | true =>
      simp only [hreleases, ht, decide_true, Bool.toNat_true] at hstep
      simp only [ht, true_and, true_iff]
      omega
    | false =>
      simp only [hreleases, ht, decide_true, Bool.toNat_true, Bool.toNat_false] at hstep
      simp only [ht, true_and, Bool.false_eq_true, false_iff]
      omega
  · have hquiet : releases P i u e = false := by
      rw [releases, periodReset, periodPoint_none ht]
      rfl
    simp [hquiet, ht]

/-- With a period of two the second tick releases the first task. -/
theorem released_on_second_tick : ∃ s u v, (kernel referencePlatform).Initial s ∧
    run (kernel referencePlatform) s [tick] = .ok u ∧ trap referencePlatform u tick = .ok v ∧
      releases referencePlatform 0 u tick = true := by
  obtain ⟨s, hs, ht⟩ := endsWith_iff.mp (show endsWith
    (boot referencePlatform resetHart 0 (fun _ => 0) [legacyTask 4 1 300000 2])
    (fun s => decide ((s.tasks 0).state ≠ .dead ∧ (s.tasks 0).periodTicks = 2) &&
      endsWith (run (kernel referencePlatform) s ([tick] ++ [tick])) fun _ => true) = true
    by decide +kernel)
  obtain ⟨hfacts, hruns⟩ := Bool.and_eq_true_iff.mp ht
  obtain ⟨hcreated, hperiod⟩ := of_decide_eq_true hfacts
  obtain ⟨v, hv, -⟩ := endsWith_iff.mp hruns
  obtain ⟨u, hu, hv⟩ := run_append_ok.mp hv
  rw [run_singleton] at hv
  have h0 : (kernel referencePlatform).Initial s := ⟨_, _, _, _, hs⟩
  refine ⟨s, u, v, h0, hu, hv, (released_on_time h0 hcreated (by rw [hperiod]; decide)
    (by rw [hperiod]; decide) hu hv).mpr ⟨by decide, ?_⟩⟩
  rw [hperiod]
  decide

/-! ## Supply -/

/-- The trap fills the account of the task up: a release or the recovery from degraded mode. -/
def refills (P : Platform) (i : TaskIndex) (s : Sys) (e : TrapEvent) : Bool :=
  releases P i s e || rearmed P i s e

/-- An account that started with at most `B` and is not empty while the task may run. -/
structure Account (B : ℕ) (t : Task) : Prop where
  budget_le : t.budgetCycles ≤ B
  remaining_le : t.remainingCycles ≤ B
  awake : isSelectableByScheduler t.state = true → 0 < t.remainingCycles

section

variable {P : Platform} {i : TaskIndex} {s v x b q : Sys} {e : TrapEvent} {es : List TrapEvent}
  {B : ℕ}

theorem periodTask_budget (t : Task) : (periodTask t).budgetCycles = t.budgetCycles := by
  rw [periodTask]
  split
  · dsimp only
    split <;> rfl
  · rfl

theorem account_released (ht : Account B (x.tasks i)) (hin : i.val < x.taskCount)
    (hpoint : periodPoint P s e = some x) (horiginal : (x.tasks i).originalBudget = B)
    (hfunded : 0 < ((tryRecoverFromDegrade (periodPhase x)).tasks i).budgetCycles) :
    Account B ((tryRecoverFromDegrade (periodPhase x)).tasks i) ∧
      (refills P i s e = false → ((tryRecoverFromDegrade (periodPhase x)).tasks i).remainingCycles =
        (x.tasks i).remainingCycles) := by
  have hperiod : (periodPhase x).tasks i = periodTask (x.tasks i) := if_pos hin
  cases hrearm : rearmed P i s e with
  | true =>
    have hwoken := hrearm
    rw [rearmed, hpoint, Option.any_some] at hwoken
    simp only [Bool.and_eq_true, decide_eq_true_eq] at hwoken
    obtain ⟨hrec, hcount, hdal, hsuspended⟩ := hwoken
    have hz : (tryRecoverFromDegrade (periodPhase x)).tasks i =
        recoverTask ((periodPhase x).tasks i) := tryRecoverFromDegrade_task hrec hcount
    have hfull : (recoverTask ((periodPhase x).tasks i)).budgetCycles = B ∧
        (recoverTask ((periodPhase x).tasks i)).remainingCycles = B := by
      have hsame : ((periodPhase x).tasks i).originalBudget = B := by
        rw [config_originalBudget ((periodPhase_evolves x).config i), horiginal]
      rw [recoverTask, if_pos ⟨hdal, hsuspended⟩]
      exact ⟨hsame, hsame⟩
    rw [hz, hfull.1] at hfunded
    rw [hz]
    refine ⟨⟨hfull.1.le, hfull.2.le, fun _ => hfull.2.symm ▸ hfunded⟩, ?_⟩
    simp [refills, hrearm]
  | false =>
    have hkept : (tryRecoverFromDegrade (periodPhase x)).tasks i = periodTask (x.tasks i) := by
      rw [rearmed, hpoint] at hrearm
      exact (recovery_keeps (periodPhase x) i hrearm).trans hperiod
    rw [hkept, periodTask_budget] at hfunded
    rw [hkept]
    cases hends : periodEnds (x.tasks i) with
    | true =>
      have hfull := periodTask_ended hends
      refine ⟨⟨(periodTask_budget _).trans_le ht.budget_le, hfull.trans_le ht.budget_le,
        fun _ => hfull.symm ▸ hfunded⟩, ?_⟩
      simp [refills, releases, periodReset, hpoint, hin, hends]
    | false =>
      obtain ⟨hremaining, hstate⟩ := periodTask_running hends
      refine ⟨⟨(periodTask_budget _).trans_le ht.budget_le, hremaining.trans_le ht.remaining_le, ?_⟩,
        fun _ => hremaining⟩
      rw [hremaining, hstate]
      exact ht.awake

theorem ticksOfBudget_charge {r n : ℕ} (hn : n ≤ 1) (hpaid : n * cyclesPerTick < r + cyclesPerTick) :
    n + ticksOfBudget (r - n * cyclesPerTick) ≤ ticksOfBudget r := by
  have hcases : n = 0 ∨ n = 1 := by omega
  rcases hcases with rfl | rfl
  · simp
  · simp only [ticksOfBudget, cyclesPerTick] at *
    omega

theorem ticksOfBudget_mono {r r' : ℕ} (h : r ≤ r') : ticksOfBudget r ≤ ticksOfBudget r' :=
  Nat.div_le_div_right (by omega)

theorem account_trap (hcreated : i.val < s.taskCount) (hs : Account B (s.tasks i))
    (horiginal : (s.tasks i).originalBudget = B) (h : trap P s e = .ok v)
    (hfunded : 0 < (v.tasks i).budgetCycles) : Account B (v.tasks i) ∧
      (charged P i s e).toNat + ticksOfBudget (v.tasks i).remainingCycles ≤
        ticksOfBudget B * (refills P i s e).toNat + ticksOfBudget (s.tasks i).remainingCycles := by
  rcases trap_tick_or_idle h with ⟨x, b, q, ht⟩ | ⟨hpoint, hrestrains, haccount⟩
  · have hremaining : (x.tasks i).remainingCycles = (s.tasks i).remainingCycles :=
      view_field (ht.entry i) Task.remainingCycles fun _ => rfl
    have hx : Account B (x.tasks i) := by
      refine ⟨(ht.entryRestrains.budget i).trans hs.budget_le, hremaining.trans_le hs.remaining_le,
        fun hsel => ?_⟩
      rw [hremaining]
      exact hs.awake (ht.entryRestrains.selectable i hsel)
    have hxoriginal : (x.tasks i).originalBudget = B :=
      (view_field (ht.entry i) Task.originalBudget fun _ => rfl).trans horiginal
    have hdown := ((watchdogRun_restrains ht.watchdog).trans (budgetPhase_restrains ht.budget)).trans
      ht.exitRestrains
    obtain ⟨hz, hquiet⟩ := account_released hx (ht.entryRestrains.taskCount ▸ hcreated) ht.period
      hxoriginal (hfunded.trans_le (hdown.budget i))
    have hstart : Spent ((tryRecoverFromDegrade (periodPhase x)).tasks i).remainingCycles 0
        ((tryRecoverFromDegrade (periodPhase x)).tasks i) := by
      refine ⟨by simp, fun hempty => ?_, ?_⟩
      · rw [Bool.eq_false_iff]
        intro hsel
        have := hz.awake hsel
        omega
      · have := cyclesPerTick_pos
        omega
    have hspent := spent_tick hstart ht.watchdog ht.budget ht.exit ht.exitRestrains
      (Nat.pos_iff_ne_zero.mp hfunded)
    rw [← charged_tick ht, Nat.zero_add] at hspent
    refine ⟨⟨(hdown.budget i).trans hz.budget_le, ?_, ?_⟩, ?_⟩
    · rw [hspent.remaining]
      exact (Nat.sub_le _ _).trans hz.remaining_le
    · intro hsel
      rw [hspent.remaining]
      by_contra hempty
      rw [hspent.stopped (by omega)] at hsel
      cases hsel
    · have hcharge := ticksOfBudget_charge (Bool.toNat_le _) hspent.bounded
      rw [← hspent.remaining] at hcharge
      refine hcharge.trans ?_
      cases hrefills : refills P i s e with
      | true =>
        have := ticksOfBudget_mono hz.remaining_le
        simp only [Bool.toNat_true, Nat.mul_one]
        omega
      | false => simp [hquiet hrefills, hremaining]
  · have hremaining : (v.tasks i).remainingCycles = (s.tasks i).remainingCycles :=
      view_field (haccount i) Task.remainingCycles fun _ => rfl
    have hidle : charged P i s e = false := by
      rw [charged, budgetPoint_none hpoint]
      rfl
    refine ⟨⟨(hrestrains.budget i).trans hs.budget_le, hremaining.trans_le hs.remaining_le,
      fun hsel => ?_⟩, ?_⟩
    · rw [hremaining]
      exact hs.awake (hrestrains.selectable i hsel)
    · rw [hidle, hremaining]
      simp

/-- A created task with an account of at most `B`. -/
structure Supplied (i : TaskIndex) (B : ℕ) (s : Sys) : Prop where
  inv : TaskInv s
  created : (s.tasks i).state ≠ .dead
  account : Account B (s.tasks i)
  original : (s.tasks i).originalBudget = B

theorem supplied_trap (hs : Supplied i B s) (h : trap P s e = .ok v)
    (hfunded : 0 < (v.tasks i).budgetCycles) : Supplied i B v where
  inv := taskInv_trap hs.inv h
  created := mt ((trap_sameTable hs.inv h).dead i).mp hs.created
  account := (account_trap (hs.inv.created i hs.created).1 hs.account hs.original h hfunded).1
  original := (config_originalBudget ((trap_sameTable hs.inv h).config i)).trans hs.original

theorem supplied_initial (h : (kernel P).Initial s) (hcreated : (s.tasks i).state ≠ .dead) :
    Supplied i (s.tasks i).originalBudget s := by
  have hi := reachable_taskInv (.initial h : Reachable (kernel P) anyStep s)
  have hfresh := (initial_counters h).2 i
  obtain ⟨hpos, hle⟩ := budgetBounds_initial h i ⟨(hi.created i hcreated).1, hcreated⟩
  refine ⟨hi, hcreated, ⟨hle, hfresh.remaining.trans_le hle, fun _ => ?_⟩, rfl⟩
  rw [hfresh.remaining]
  exact hpos

/-- The trap leaves the task a budget; without one it would run unmetered. -/
def Metered (P : Platform) (i : TaskIndex) (s : Sys) (e : TrapEvent) : Prop :=
  ∀ v, trap P s e = .ok v → 0 < (v.tasks i).budgetCycles

theorem supplied_reachable (h : Reachable (kernel P) (Metered P i) s)
    (hcreated : (s.tasks i).state ≠ .dead) : Supplied i (s.tasks i).originalBudget s := by
  have hall : (s.tasks i).state ≠ .dead → Supplied i (s.tasks i).originalBudget s := by
    apply reachable_invariant
      (I := fun x => (x.tasks i).state ≠ .dead → Supplied i (x.tasks i).originalBudget x) _ _ h
    · intro x h0 hx
      exact supplied_initial h0 hx
    · intro x e u hx hs hmetered hu hcu
      have htable := trap_sameTable (reachable_taskInv hx) hu
      rw [config_originalBudget (htable.config i)]
      exact supplied_trap (hs (mt (htable.dead i).mpr hcu)) hu (hmetered u hu)
  exact hall hcreated

theorem run_releases_le (h : Reachable (kernel P) anyStep s)
    (hcreated : (s.tasks i).state ≠ .dead) (hrun : run (kernel P) s es = .ok v) :
    tally (kernel P) (releases P i) s es ≤
      ((s.tasks i).periodCounter + es.countP fun e => decide (IsTimer e.mcause)) /
        (s.tasks i).periodTicks := by
  have hi := reachable_taskInv h
  rcases inPeriod_or_never h hcreated with hin | hnever
  · have htimed : Timed i (s.tasks i).periodTicks s := ⟨hi, hcreated, hin, rfl⟩
    have hcount : tally (kernel P) timerTick s es =
        es.countP (fun e => decide (IsTimer e.mcause)) := tally_countP hrun
    rw [← hcount]
    exact (run_released htimed hrun).1.le
  · rw [run_unreleased hi hcreated hnever hrun]
    exact Nat.zero_le _

theorem run_charged (h : Reachable (kernel P) (Metered P i) s)
    (hcreated : (s.tasks i).state ≠ .dead) (hmetered : GuardedRun (kernel P) (Metered P i) s es)
    (hrun : run (kernel P) s es = .ok v) :
    tally (kernel P) (charged P i) s es ≤ ticksOfBudget (s.tasks i).originalBudget *
      (tally (kernel P) (releases P i) s es + tally (kernel P) (rearmed P i) s es + 1) := by
  have hsupplied := supplied_reachable h hcreated
  generalize (s.tasks i).originalBudget = B at hsupplied ⊢
  have hlevel : ∀ x, Supplied i B x → ticksOfBudget (x.tasks i).remainingCycles ≤ ticksOfBudget B :=
    fun x hx => ticksOfBudget_mono hx.account.remaining_le
  have hstep : ∀ x e u, Supplied i B x → Metered P i x e → trap P x e = .ok u →
      Supplied i B u ∧ (charged P i x e).toNat +
        (ticksOfBudget B - ticksOfBudget (x.tasks i).remainingCycles) ≤
          ticksOfBudget B * (refills P i x e).toNat +
            (ticksOfBudget B - ticksOfBudget (u.tasks i).remainingCycles) := by
    intro x e u hx hg hu
    have hu' := supplied_trap hx hu (hg u hu)
    obtain ⟨-, hstep⟩ := account_trap (hx.inv.created i hx.created).1 hx.account hx.original hu
      (hg u hu)
    have := hlevel x hx
    have := hlevel u hu'
    exact ⟨hu', by omega⟩
  have hbucket := run_bucket_guarded (M := kernel P) (I := Supplied i B)
    (fun x => ticksOfBudget B - ticksOfBudget (x.tasks i).remainingCycles) hstep hsupplied hmetered
    hrun
  have hrefills : tally (kernel P) (refills P i) s es ≤
      tally (kernel P) (releases P i) s es + tally (kernel P) (rearmed P i) s es :=
    tally_or_le s es
  have hpaid := Nat.mul_le_mul_left (ticksOfBudget B) hrefills
  rw [Nat.mul_add, Nat.mul_one]
  omega

end

/-- What a run supplies to a task: its budget once for every release and every recovery in the run,
and what the account held at the start. -/
theorem supply_bounded {P : Platform} {s v : Sys} {es : List TrapEvent} {i : TaskIndex}
    (h : Reachable (kernel P) (Metered P i) s) (hcreated : (s.tasks i).state ≠ .dead)
    (hmetered : GuardedRun (kernel P) (Metered P i) s es) (hrun : run (kernel P) s es = .ok v) :
    tally (kernel P) (charged P i) s es ≤ ticksOfBudget (s.tasks i).originalBudget *
      (((s.tasks i).periodCounter + es.countP fun e => decide (IsTimer e.mcause)) /
        (s.tasks i).periodTicks + tally (kernel P) (rearmed P i) s es + 1) := by
  have hreleases := run_releases_le (h.weaken fun _ _ _ => trivial) hcreated hrun
  refine (run_charged h hcreated hmetered hrun).trans (Nat.mul_le_mul_left _ ?_)
  omega

/-- One tick of a task that has three ticks of budget a period. -/
theorem supply_of_one_tick : ∃ s v, Reachable (kernel referencePlatform)
    (Metered referencePlatform 0) s ∧ run (kernel referencePlatform) s [tick] = .ok v ∧
      tally (kernel referencePlatform) (charged referencePlatform 0) s [tick] ≤
        3 * (tally (kernel referencePlatform) (rearmed referencePlatform 0) s [tick] + 1) := by
  obtain ⟨s, hs, ht⟩ := endsWith_iff.mp (show endsWith
    (boot referencePlatform resetHart 0 (fun _ => 0) [legacyTask 4 1 300000 10])
    (fun s => decide ((s.tasks 0).state ≠ .dead ∧ (s.tasks 0).periodTicks = 10 ∧
      (s.tasks 0).periodCounter = 0 ∧ (s.tasks 0).originalBudget = 300000) &&
      endsWith (trap referencePlatform s tick) fun v => decide (0 < (v.tasks 0).budgetCycles)) =
      true by decide +kernel)
  obtain ⟨hfacts, hruns⟩ := Bool.and_eq_true_iff.mp ht
  obtain ⟨hcreated, hperiod, hcounter, hbudget⟩ := of_decide_eq_true hfacts
  obtain ⟨v, hv, hfunded⟩ := endsWith_iff.mp hruns
  have hreached : Reachable (kernel referencePlatform) (Metered referencePlatform 0) s :=
    .initial ⟨_, _, _, _, hs⟩
  have hmetered : GuardedRun (kernel referencePlatform) (Metered referencePlatform 0) s [tick] := by
    refine ⟨fun u hu => ?_, fun _ _ => trivial⟩
    obtain rfl := Except.ok.inj (hv.symm.trans hu)
    exact of_decide_eq_true hfunded
  have hrun : run (kernel referencePlatform) s [tick] = .ok v := run_singleton.trans hv
  have hbound := supply_bounded hreached hcreated hmetered hrun
  rw [hcounter, hperiod, hbudget] at hbound
  refine ⟨s, v, hreached, hrun, ?_⟩
  have hsmall : (0 + [tick].countP fun e => decide (IsTimer e.mcause)) / 10 = 0 := by decide
  rw [hsmall, Nat.zero_add] at hbound
  exact hbound

end KernelSupply
