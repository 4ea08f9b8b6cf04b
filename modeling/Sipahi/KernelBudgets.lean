import Sipahi.KernelDegradation

/-!
# Budgets over degradation and recovery

Recovery restores the budgets of suspended tasks only, and every degradation halves again.
-/
namespace KernelBudgets

open KernelTypes KernelPolicy KernelState KernelTrapFrame KernelScheduler KernelSyscall KernelTrap
open KernelEvolution KernelSelection KernelBoot KernelTaskInvariants KernelReference
open KernelDegradation RiscvHart GuardedExecution

theorem live_iff {t : Task} :
    t.live ↔ t.state = .ready ∨ t.state = .running ∨ t.state = .suspended := by
  unfold Task.live
  cases t.state <;> simp

theorem degradeTask_budget (t : Task) : (degradeTask t).budgetCycles =
    if 2 ≤ t.dal ∧ t.live then t.budgetCycles / 2 else t.budgetCycles := by
  unfold degradeTask
  split <;> rfl

theorem recoverTask_budget (t : Task) : (recoverTask t).budgetCycles =
    if 2 ≤ t.dal ∧ t.state = .suspended then t.originalBudget else t.budgetCycles := by
  unfold recoverTask
  split <;> rfl

theorem degradeSystem_budget {s : Sys} {i : TaskIndex} (hi : i.val < s.taskCount) :
    ((degradeSystem s).tasks i).budgetCycles =
      if 2 ≤ (s.tasks i).dal ∧ (s.tasks i).live then (s.tasks i).budgetCycles / 2
      else (s.tasks i).budgetCycles := by
  simp only [degradeSystem, hi, if_true]
  exact degradeTask_budget _

theorem periodPhase_task {s : Sys} {i : TaskIndex} (hi : i.val < s.taskCount) :
    (periodPhase s).tasks i = periodTask (s.tasks i) := by
  simp [periodPhase, hi]

theorem tryRecoverFromDegrade_task {s : Sys} {i : TaskIndex} (h : recovers s = true)
    (hi : i.val < s.taskCount) :
    (tryRecoverFromDegrade s).tasks i = recoverTask (s.tasks i) := by
  simp [tryRecoverFromDegrade, h, hi]

/-- The budget after the period reset and the attempt to recover. -/
theorem tick_budget {s : Sys} {i : TaskIndex} (hi : i.val < s.taskCount) :
    ((tryRecoverFromDegrade (periodPhase s)).tasks i).budgetCycles =
      if recovers s = true ∧ 2 ≤ (s.tasks i).dal ∧ (s.tasks i).state = .suspended ∧
        ¬ periodExpires (s.tasks i)
      then (s.tasks i).originalBudget else (s.tasks i).budgetCycles := by
  have hcfg := periodTask_config (s.tasks i)
  by_cases hr : recovers s = true
  · have hrp : recovers (periodPhase s) = true := by rw [recovers_periodPhase, hr]
    rw [tryRecoverFromDegrade_task hrp hi, periodPhase_task hi, recoverTask_budget,
      config_dal hcfg, config_originalBudget hcfg, periodTask_budget]
    by_cases hs : (s.tasks i).state = .suspended
    · rw [periodTask_wakes hs]
      by_cases he : periodExpires (s.tasks i)
      · simp [he]
      · simp [he, hr, hs]
    · rw [periodTask_stays hs]
      simp [hs]
  · rw [tryRecoverFromDegrade_eq (by rw [recovers_periodPhase]; simpa using hr),
      periodPhase_task hi, periodTask_budget]
    simp [hr]

theorem tick_evolves (s : Sys) : Evolves s (tryRecoverFromDegrade (periodPhase s)) :=
  (periodPhase_evolves s).trans (tryRecoverFromDegrade_evolves _)

theorem evolves_live {s u : Sys} (h : Evolves s u) {i : TaskIndex} (hl : (u.tasks i).live) :
    (s.tasks i).live :=
  ⟨fun hd => hl.1 ((h.dead i).mpr hd), fun hi => hl.2 (h.isolated i hi)⟩

theorem switched_live {P : Platform} {s u : Sys} {next : TaskIndex} {flow : Flow}
    (hsel : Selectable s next) (hs : Switched P s s.currentTask next u flow) {i : TaskIndex}
    (hl : (u.tasks i).live) : (s.tasks i).live := by
  obtain ⟨pmp, rfl⟩ := hs.state
  exact ⟨fun hd => hl.1 ((handOver_dead _ (selectable_alive hsel) i).mpr hd),
    fun hi => hl.2 ((handOver_isolated _ (selectable_not_isolated hsel) i).mpr hi)⟩

/-! ## Recovery -/

/-- A DAL-A/B task always has its full budget, a DAL-C/D one outside degraded mode. -/
def FullBudgets (s : Sys) : Prop :=
  ∀ i, i.val < s.taskCount → (s.tasks i).live → (s.tasks i).dal < 2 ∨ s.degraded = false →
    (s.tasks i).budgetCycles = (s.tasks i).originalBudget

/-- A recovery finds every live DAL-C/D task with its full budget or suspended, and in the latter
case with a period that does not end in the same tick. -/
def RestoresAll (q : Sys) : Prop :=
  recovers q = true → ∀ i, i.val < q.taskCount → 2 ≤ (q.tasks i).dal → (q.tasks i).live →
    (q.tasks i).budgetCycles = (q.tasks i).originalBudget ∨
      (q.tasks i).state = .suspended ∧ ¬ periodExpires (q.tasks i)

theorem fullBudgets_tick {s : Sys} (hT : RestoresAll s) (hI : FullBudgets s) :
    FullBudgets (tryRecoverFromDegrade (periodPhase s)) := by
  have he := tick_evolves s
  intro i hi hl hor
  have hi' : i.val < s.taskCount := he.taskCount ▸ hi
  have hl' := evolves_live he hl
  rw [config_dal (he.config i)] at hor
  rw [config_originalBudget (he.config i), tick_budget hi']
  split
  · rfl
  · rename_i hno
    by_cases hr : recovers s = true
    · by_cases hdal : 2 ≤ (s.tasks i).dal
      · rcases hT hr i hi' hdal hl' with hb | ⟨hs, hp⟩
        · exact hb
        · exact absurd ⟨hr, hdal, hs, hp⟩ hno
      · exact hI i hi' hl' (Or.inl (by omega))
    · refine hI i hi' hl' (hor.imp_right fun hd => ?_)
      rwa [tryRecoverFromDegrade_eq (by rw [recovers_periodPhase]; simpa using hr)] at hd

theorem fullBudgets_modeInvariant : ModeInvariant FullBudgets (fun _ => True) RestoresAll where
  quiet := by
    intro s u hq hI i hi hl hor
    rw [config_dal (hq.config i), hq.degraded] at hor
    rw [hq.budget i, config_originalBudget (hq.config i)]
    exact hI i (hq.taskCount ▸ hi) (hq.live hl) hor
  guard := fun _ _ => trivial
  degrade := by
    intro s _ hI i hi hl hor
    have hlow : (s.tasks i).dal < 2 := by
      rw [config_dal (degradeSystem_config s i)] at hor
      exact hor.resolve_right (by simp [degradeSystem])
    have hi' : i.val < s.taskCount := hi
    rw [config_originalBudget (degradeSystem_config s i), degradeSystem_budget hi',
      if_neg (by omega)]
    exact hI i hi' (evolves_live (degradeSystem_evolves s) hl) (Or.inl hlow)
  tick := fullBudgets_tick
  handOver := by
    intro P s next u flow hsel hs hI i hi hl hor
    have hl' := switched_live hsel hs hl
    obtain ⟨pmp, rfl⟩ := hs.state
    have hcfg := handOver_config s.tasks s.currentTask next i
    rw [config_dal hcfg] at hor
    rw [handOver_budget, config_originalBudget hcfg]
    exact hI i hi hl' hor

theorem fullBudgets_initial {P : Platform} {s : Sys} (h : (kernel P).Initial s) :
    FullBudgets s := by
  obtain ⟨q, best, hs⟩ := initial_started h
  obtain ⟨pmp, rfl⟩ := hs.state
  intro i _ hl _
  by_cases hi : i = best
  · subst i
    have hf := booted_alive hs.booted (i := best) (by rw [hs.ready]; simp)
    simpa using hf.budget_full
  · have hf := booted_alive hs.booted (i := i) (by simpa [hi] using hl.1)
    simpa [hi] using hf.budget_full

/-- Outside degraded mode every live task has its full budget, provided each recovery of the run
found the reduced tasks suspended. -/
theorem recovery_restores_full_budget {P : Platform} {s : Sys}
    (h : Reachable (kernel P) (fun q e => ∀ v, ResetsPeriodsIn P q e v → RestoresAll v) s)
    (hd : s.degraded = false) : ∀ i, s.Created i →
      (s.tasks i).state = .ready ∨ (s.tasks i).state = .running ∨
        (s.tasks i).state = .suspended →
      (s.tasks i).budgetCycles = (s.tasks i).originalBudget := by
  intro i hc hst
  exact fullBudgets_modeInvariant.reachable (fun _ _ hg => ⟨fun _ _ => trivial, hg⟩)
    (fun _ h0 => fullBudgets_initial h0) h i hc.1 (live_iff.mpr hst) (Or.inr hd)

instance (q : Sys) : Decidable (RestoresAll q) :=
  inferInstanceAs (Decidable (_ → ∀ _, _ → _ → _ → _))

/-- Evaluates the condition of `recovery_restores_full_budget` at one trap. -/
def restoresAllAt (s : Sys) (e : TrapEvent) : Bool :=
  !decide (IsTimer e.mcause) ||
    endsWith (periodResetPoint referencePlatform s e) fun q => decide (RestoresAll q)

theorem restoresAllAt_guard (s : Sys) (e : TrapEvent) (h : restoresAllAt s e = true) :
    ∀ v, ResetsPeriodsIn referencePlatform s e v → RestoresAll v := by
  intro v hv
  simp only [restoresAllAt, hv.1, decide_true, Bool.not_true, Bool.false_or] at h
  obtain ⟨q, hq, ht⟩ := endsWith_iff.mp h
  obtain rfl : v = q := Except.ok.inj ((periodResetPoint_eq hv).symm.trans hq)
  exact of_decide_eq_true ht

/-- A degradation and the recovery from it, with a DAL-C task that has no period. -/
theorem full_budget_after_recovery : ∃ s, Reachable (kernel referencePlatform)
    (fun q e => ∀ v, ResetsPeriodsIn referencePlatform q e v → RestoresAll v) s ∧
      s.degraded = false ∧ (s.tasks 1).state = .ready ∧
      (s.tasks 1).budgetCycles = (s.tasks 1).originalBudget := by
  let calls := [legacyTask 0 0 100000000 0, legacyTask 5 2 300000 0]
  let events := earlyYield :: (List.replicate 50 tick ++ earlyYield :: List.replicate 50 tick)
  obtain ⟨s, hs, ht⟩ := endsWith_iff.mp (show endsWith (scenario calls events) (fun s =>
    decide (s.degraded = false ∧ s.Created 1 ∧ (s.tasks 1).state = .ready)) = true
    by decide +kernel)
  obtain ⟨hd, hc, hst⟩ := of_decide_eq_true ht
  have hr : Reachable (kernel referencePlatform)
      (fun q e => ∀ v, ResetsPeriodsIn referencePlatform q e v → RestoresAll v) s :=
    checkedScenario_reachable restoresAllAt_guard
      (show checkedScenario restoresAllAt calls events = true by decide +kernel) hs
  exact ⟨s, hr, hd, hst, recovery_restores_full_budget hr hd 1 hc (Or.inl hst)⟩

/-- A DAL-A task above a DAL-C one whose period is a single tick: recovery finds the latter
`Ready` and leaves it with half its budget. -/
theorem recovery_leaves_half_budget : ¬ ∀ (P : Platform) (s : Sys),
    Reachable (kernel P) anyStep s → s.degraded = false → ∀ i, s.Created i →
      (s.tasks i).state = .ready ∨ (s.tasks i).state = .running ∨
        (s.tasks i).state = .suspended →
      (s.tasks i).budgetCycles = (s.tasks i).originalBudget := by
  intro h
  obtain ⟨s, hs, ht⟩ := endsWith_iff.mp (show endsWith
    (scenario [legacyTask 0 0 100000000 0, legacyTask 5 2 300000 1]
      (earlyYield :: (List.replicate 50 tick ++ earlyYield :: List.replicate 50 tick)))
    (fun s => decide (s.degraded = false ∧ s.Created 1 ∧ (s.tasks 1).state = .ready ∧
      (s.tasks 1).budgetCycles = 150000 ∧ (s.tasks 1).originalBudget = 300000)) = true
    by decide +kernel)
  obtain ⟨hd, hc, hready, hb, ho⟩ := of_decide_eq_true ht
  have heq := h _ s (scenario_reachable hs) hd 1 hc (Or.inl hready)
  omega

/-! ## Repeated degradation -/

def BudgetBounds (s : Sys) : Prop :=
  ∀ i, s.Created i → 0 < (s.tasks i).budgetCycles ∧
    (s.tasks i).budgetCycles ≤ (s.tasks i).originalBudget

/-- Every task that a degradation would reduce has at least two cycles left to halve. -/
def Halvable (q : Sys) : Prop :=
  ∀ i, i.val < q.taskCount → 2 ≤ (q.tasks i).dal → (q.tasks i).live → 2 ≤ (q.tasks i).budgetCycles

instance (q : Sys) : Decidable (Halvable q) := inferInstanceAs (Decidable (∀ _, _ → _ → _ → _))

theorem budgetBounds_degrade {s : Sys} (hD : Halvable s) (hI : BudgetBounds s) :
    BudgetBounds (degradeSystem s) := by
  intro i hc
  have hc' := (created_evolves (degradeSystem_evolves s) i).mp hc
  have hb := hI i hc'
  rw [config_originalBudget (degradeSystem_config s i), degradeSystem_budget hc'.1]
  split
  · rename_i h
    have := hD i hc'.1 h.1 h.2
    omega
  · exact hb

theorem budgetBounds_tick {s : Sys} (hI : BudgetBounds s) :
    BudgetBounds (tryRecoverFromDegrade (periodPhase s)) := by
  have he := tick_evolves s
  intro i hc
  have hc' := (created_evolves he i).mp hc
  have hb := hI i hc'
  rw [config_originalBudget (he.config i), tick_budget hc'.1]
  split
  · omega
  · exact hb

theorem budgetBounds_modeInvariant : ModeInvariant BudgetBounds Halvable (fun _ => True) where
  quiet := by
    intro s u hq hI i hc
    have hc' : s.Created i := by
      refine ⟨hq.taskCount ▸ hc.1, fun hd => ?_⟩
      rcases hq.state i with h | ⟨hl, -⟩
      · exact hc.2 (h.trans hd)
      · exact hl.1 hd
    rw [hq.budget i, config_originalBudget (hq.config i)]
    exact hI i hc'
  guard := by
    intro s u hq hD i hi hdal hl
    rw [config_dal (hq.config i)] at hdal
    rw [hq.budget i]
    exact hD i (hq.taskCount ▸ hi) hdal (hq.live hl)
  degrade := budgetBounds_degrade
  tick := fun _ hI => budgetBounds_tick hI
  handOver := by
    intro P s next u flow hsel hs hI i hc
    obtain ⟨pmp, rfl⟩ := hs.state
    have hdead := handOver_dead s.currentTask (selectable_alive hsel) i
    rw [handOver_budget, config_originalBudget (handOver_config s.tasks s.currentTask next i)]
    exact hI i ⟨hc.1, fun hd => hc.2 (hdead.mpr hd)⟩

theorem budgetBounds_initial {P : Platform} {s : Sys} (h : (kernel P).Initial s) :
    BudgetBounds s := by
  obtain ⟨q, best, hs⟩ := initial_started h
  obtain ⟨pmp, rfl⟩ := hs.state
  intro i hc
  by_cases hi : i = best
  · subst i
    have hf := booted_alive hs.booted (i := best) (by rw [hs.ready]; simp)
    simpa using And.intro hf.budget_pos hf.budget_full.le
  · have hf := booted_alive hs.booted (i := i) (by simpa [hi] using hc.2)
    simpa [hi] using And.intro hf.budget_pos hf.budget_full.le

/-- A budget is never reduced to zero in a run that degrades only while there is something left
to halve. -/
theorem budget_enforcement_stays_on {P : Platform} {s : Sys}
    (h : Reachable (kernel P) (fun q e => ∀ v, DegradesIn P q e v → Halvable v) s) :
    ∀ i, s.Created i → 0 < (s.tasks i).budgetCycles ∧
      (s.tasks i).budgetCycles ≤ (s.tasks i).originalBudget :=
  budgetBounds_modeInvariant.reachable (fun _ _ hg => ⟨hg, fun _ _ => trivial⟩)
    (fun _ h0 => budgetBounds_initial h0) h

theorem earlyYield_degrades {P : Platform} {s q : Sys} (h : DegradesIn P s earlyYield q) :
    SameKernel s q := by
  obtain ⟨u, args, hu, hq⟩ := h
  rw [(entered_args hu).mcause] at hq
  cases hq with
  | deadline ht | watchdog ht | budget ht => exact absurd ht (by decide)
  | kick => exact entered_sameKernel hu

theorem budget_enforcement_after_degradation : ∃ s, Reachable (kernel referencePlatform)
    (fun q e => ∀ v, DegradesIn referencePlatform q e v → Halvable v) s ∧
      s.degraded = true ∧ s.Created 1 ∧ 0 < (s.tasks 1).budgetCycles := by
  obtain ⟨v, hv, ht⟩ := endsWith_iff.mp (show endsWith (scenario bootInit [earlyYield])
    (fun s => decide (s.degraded = true ∧ s.Created 1)) = true by decide +kernel)
  obtain ⟨hd, hc⟩ := of_decide_eq_true ht
  obtain ⟨s, hs, hstep⟩ := scenario_append [] hv
  rw [run_singleton] at hstep
  have hhalvable : Halvable s := by
    obtain ⟨s', hs', ht⟩ := endsWith_iff.mp (show endsWith (scenario bootInit [])
      (fun s => decide (Halvable s)) = true by decide +kernel)
    obtain rfl : s = s' := Except.ok.inj (hs.symm.trans hs')
    exact of_decide_eq_true ht
  have hr : Reachable (kernel referencePlatform)
      (fun q e => ∀ v, DegradesIn referencePlatform q e v → Halvable v) v := by
    refine (booted_reachable hs).next (fun q hq => ?_) hstep
    have hsame := earlyYield_degrades hq
    unfold Halvable
    rw [hsame.tasks, hsame.taskCount]
    exact hhalvable
  exact ⟨v, hr, hd, hc, (budget_enforcement_stays_on hr 1 hc).1⟩

/-- Eighteen early yields of task 0 in a row halve the 200000 cycles of task 1 to zero. -/
theorem repeated_degradation_ends_enforcement : ¬ ∀ (P : Platform) (s : Sys),
    Reachable (kernel P) anyStep s → ∀ i, s.Created i → 0 < (s.tasks i).budgetCycles ∧
      (s.tasks i).budgetCycles ≤ (s.tasks i).originalBudget := by
  intro h
  obtain ⟨s, hs, ht⟩ := endsWith_iff.mp (show endsWith
    (scenario bootInit (List.replicate 18 earlyYield))
    (fun s => decide (s.Created 1 ∧ (s.tasks 1).budgetCycles = 0)) = true by decide +kernel)
  obtain ⟨hc, hzero⟩ := of_decide_eq_true ht
  have hpos := (h _ s (scenario_reachable hs) 1 hc).1
  omega

end KernelBudgets
