import Sipahi.KernelSelection

/-! # What boot leaves behind -/
namespace KernelBoot

open KernelTypes KernelPmp KernelState KernelTrapFrame KernelScheduler KernelTrap KernelEvolution
open KernelSelection KernelIpcChannel FirstMinimum RiscvHart GuardedExecution

/-- The saved context is that of a task which has not run yet. -/
def FreshContext (P : Platform) (h : Hart Slot) (i : TaskIndex) (t : Task) : Prop :=
  ∀ offset, h.mem (.context i offset) = freshContext P t.entry t.stackTop offset

/-- A task that is not native runs on the stack of its slot. -/
def LegacyStack (P : Platform) (i : TaskIndex) (t : Task) : Prop :=
  t.isSntmNative = false →
    t.pmpAddrNapot = (P.taskStackBase i >>> 2) ||| pmpNapotMask8kb ∧
      t.stackTop = alignDown16 (P.taskStackBase i + taskStackSize)

/-- A stack of the array ends on a boundary of 16 bytes. -/
theorem taskStack_top (P : Platform) (i : TaskIndex) :
    alignDown16 (P.taskStackBase i + taskStackSize) = P.taskStackBase i + taskStackSize := by
  have haligned := P.taskStack_aligned i
  rw [alignDown16]
  simp only [taskStackSize]
  omega

/-- A slot filled by one of the create functions. -/
structure CreatedFresh (P : Platform) (s : Sys) (i : TaskIndex) : Prop where
  ready : (s.tasks i).state = .ready
  inTable : i.val < s.taskCount
  id_eq : (s.tasks i).id = i.val
  budget_pos : 0 < (s.tasks i).budgetCycles
  budget_full : (s.tasks i).budgetCycles = (s.tasks i).originalBudget
  legacyStack : LegacyStack P i (s.tasks i)
  context : FreshContext P s.hart i (s.tasks i)

structure Booted (P : Platform) (s : Sys) : Prop where
  count_le : s.taskCount ≤ maxTasks
  slot : ∀ i, s.tasks i = .empty ∨ CreatedFresh P s i
  degraded : s.degraded = false

theorem powerOn_booted (P : Platform) (hart : Hart Slot) (mtimecmp : ℕ) (userMem : ℕ → UInt8) :
    Booted P (powerOn P hart mtimecmp userMem) :=
  ⟨Nat.zero_le _, fun _ => Or.inl rfl, rfl⟩

theorem writeContext_same (h : Hart Slot) (i : TaskIndex) (context : ℕ → ℕ) (offset : ℕ) :
    (writeContext h i context).mem (.context i offset) = context offset := by
  simp [writeContext]

/-- Filling slot `i` and leaving the others alone. -/
theorem fill_booted {P : Platform} {s u : Sys} {i : TaskIndex} (hb : Booted P s)
    (hcount : s.taskCount ≤ u.taskCount) (hmax : u.taskCount ≤ maxTasks)
    (hd : u.degraded = s.degraded) (hothers : ∀ j, j ≠ i → u.tasks j = s.tasks j)
    (hmem : ∀ j offset, j ≠ i → u.hart.mem (.context j offset) = s.hart.mem (.context j offset))
    (hfill : CreatedFresh P u i) : Booted P u := by
  refine ⟨hmax, fun j => ?_, hd.trans hb.degraded⟩
  by_cases hj : j = i
  · subst j
    exact Or.inr hfill
  · rcases hb.slot j with he | hf
    · exact Or.inl ((hothers j hj).trans he)
    · right
      have ht := hothers j hj
      refine ⟨ht ▸ hf.ready, hf.inTable.trans_le hcount, ht ▸ hf.id_eq, ht ▸ hf.budget_pos,
        ht ▸ hf.budget_full, ht ▸ hf.legacyStack, fun offset => ?_⟩
      rw [hmem j offset hj, ht]
      exact hf.context offset

theorem createTask_booted {P : Platform} {s : Sys} (hb : Booted P s) (cfg : TaskConfig) :
    Booted P (createTask P s cfg).1 := by
  rw [createTask]
  split
  · rename_i hlt
    split
    · exact hb
    · rename_i hbudget
      refine fill_booted (i := ⟨s.taskCount, hlt⟩) hb (Nat.le_succ _) hlt rfl
        (fun j hj => by simp [hj]) (fun j offset hj => (writeContext_kept ..).contexts j offset hj) ?_
      refine ⟨by simp, Nat.lt_succ_self _, by simp, by simp; omega, by simp, fun _ => by simp,
        fun offset => ?_⟩
      rw [writeContext_same]
      simp
  · exact hb

theorem nativeCreateTask_booted {P : Platform} {s : Sys} {cfg : NativeTaskConfig}
    {r : Sys × Option TaskIndex} (hb : Booted P s) (h : nativeCreateTask P s cfg = .ok r) :
    Booted P r.1 := by
  rw [nativeCreateTask] at h
  split at h
  · rename_i hlt
    split at h
    · cases h
      exact hb
    · rename_i hbudget
      dsimp only at h
      split at h
      · cases h
        exact hb
      · split at h
        · cases h
          exact hb
        · split at h
          · cases h
          · cases h
            have hle := hb.count_le
            refine fill_booted (i := ⟨cfg.taskId, hlt⟩) hb ?_ ?_ rfl
              (fun j hj => by simp [hj])
              (fun j offset hj => (writeContext_kept ..).contexts j offset hj) ?_
            · dsimp only
              split <;> omega
            · dsimp only
              split <;> omega
            · refine ⟨by simp, ?_, by simp, by simp; omega, by simp, by simp [LegacyStack],
                fun offset => ?_⟩
              · dsimp only
                split <;> omega
              · rw [writeContext_same]
                simp
  · cases h
    exact hb

theorem bootAssign_ok {s u : Sys} {channelId producer consumer : ℕ} {reason : String}
    (h : bootAssign s channelId producer consumer reason = .ok u) :
    ∃ pool, s.pool.assignChannel channelId producer consumer = some pool ∧
      u = { s with pool := pool } := by
  rw [bootAssign] at h
  split at h
  · rename_i pool hpool
    cases h
    exact ⟨pool, hpool, rfl⟩
  · cases h

theorem bootCall_booted {P : Platform} {s u : Sys} {c : BootCall} (hb : Booted P s)
    (h : bootCall P s c = .ok u) : Booted P u := by
  have same : ∀ q : Sys, q.tasks = s.tasks → q.taskCount = s.taskCount →
      q.degraded = s.degraded → q.hart = s.hart → Booted P q := by
    intro q ht hc hd hh
    refine ⟨hc ▸ hb.count_le, fun i => ?_, hd.trans hb.degraded⟩
    rcases hb.slot i with he | hf
    · exact Or.inl (ht ▸ he)
    · exact Or.inr ⟨ht ▸ hf.ready, hc ▸ hf.inTable, ht ▸ hf.id_eq, ht ▸ hf.budget_pos,
        ht ▸ hf.budget_full, ht ▸ hf.legacyStack, by rw [ht, hh]; exact hf.context⟩
  cases c with
  | createTask cfg => cases h; exact createTask_booted hb cfg
  | nativeCreateTask cfg =>
    obtain ⟨r, hr, h⟩ := bind_eq_ok.mp h
    cases h
    exact nativeCreateTask_booted hb hr
  | assignChannel channelId producer consumer =>
    obtain ⟨pool, _, rfl⟩ := bootAssign_ok h
    exact same _ rfl rfl rfl rfl
  | assignNativeChannel channelId producer consumer =>
    obtain ⟨pool, _, rfl⟩ := bootAssign_ok h
    exact same _ rfl rfl rfl rfl
  | sealChannels => cases h; exact same _ rfl rfl rfl rfl
  | provisionKey key => cases h; exact same _ rfl rfl rfl rfl
  | validateFull token caller => cases h; exact same _ rfl rfl rfl rfl

theorem bestReady_some {s : Sys} {best : TaskIndex} (h : bestReady s = some best) :
    best.val < s.taskCount ∧ (s.tasks best).state = .ready ∧
      ∀ j, j.val < s.taskCount → (s.tasks j).state = .ready →
        (s.tasks best).priority ≤ (s.tasks j).priority := by
  obtain ⟨-, hel, hmin⟩ := scan_some h
  simp only [Bool.and_eq_true, decide_eq_true_eq, beq_iff_eq] at hel
  refine ⟨hel.1, hel.2, fun j hj hs => hmin j (List.mem_finRange j) ?_⟩
  simp [hj, hs]

/-- The state at the first `mret`. -/
structure Started (P : Platform) (q s : Sys) (best : TaskIndex) : Prop where
  booted : Booted P q
  ready : (q.tasks best).state = .ready
  inTable : best.val < q.taskCount
  least : ∀ j, j.val < q.taskCount → (q.tasks j).state = .ready →
    (q.tasks best).priority ≤ (q.tasks j).priority
  state : ∃ pmp, s = { q with
    tasks := Function.update q.tasks best { q.tasks best with state := .running }
    currentTask := best
    pmp := pmp
    hart := enterFirstTask P q.hart best }

/-- Whatever holds at power-on and is kept by every boot call holds when the first task is
picked. -/
theorem initial_of_boot {P : Platform} {I : Sys → Prop}
    (h0 : ∀ hart mtimecmp userMem, I (powerOn P hart mtimecmp userMem))
    (hc : ∀ {s u : Sys} {c : BootCall}, I s → bootCall P s c = .ok u → I u) {s : Sys}
    (h : (kernel P).Initial s) : ∃ q best pmp, I q ∧ bestReady q = some best ∧ s = { q with
      tasks := Function.update q.tasks best { q.tasks best with state := .running }
      currentTask := best
      pmp := pmp
      hart := enterFirstTask P q.hart best } := by
  obtain ⟨hart, mtimecmp, userMem, calls, h⟩ := h
  obtain ⟨q, hq, h⟩ := bind_eq_ok.mp h
  have hI : I q := by
    apply run_keeps (I := I) _ (h0 hart mtimecmp userMem) hq
    intro x c u hx hu
    exact hc hx hu
  rw [startFirstTask] at h
  split at h
  · cases h
  · split at h
    · cases h
    · rename_i best hbest
      obtain ⟨pmp, -, hs⟩ := bind_eq_ok.mp h
      cases hs
      exact ⟨q, best, pmp, hI, hbest, rfl⟩

theorem initial_started {P : Platform} {s : Sys} (h : (kernel P).Initial s) :
    ∃ q best, Started P q s best := by
  obtain ⟨q, best, pmp, hb, hbest, hs⟩ := initial_of_boot (I := Booted P) (powerOn_booted P)
    bootCall_booted h
  obtain ⟨hin, hr, hmin⟩ := bestReady_some hbest
  exact ⟨q, best, hb, hr, hin, hmin, pmp, hs⟩

/-! ## Counters -/

/-- The counters of the failure policy and of the recorder are still those of the image. -/
structure ColdCounters (s : Sys) : Prop where
  blackbox : s.blackbox = .init
  restartCounts : s.restartCounts = fun _ => 0
  capFailCount : s.capFailCount = fun _ => 0

/-- A slot whose task has not run, or an empty one. -/
structure FreshCounters (t : Task) : Prop where
  remaining : t.remainingCycles = t.budgetCycles
  watchdog : t.watchdogCounter = 0
  sends : t.ipcSendCount = 0
  limit : t.watchdogLimit = 0 ∨ t.watchdogLimit = KernelTypes.watchdogLimit

/-- A rewrite of one slot keeps the counters of the others. -/
theorem freshCounters_update {s : Sys} {i : TaskIndex} {t : Task}
    (h : ∀ j, FreshCounters (s.tasks j)) (ht : FreshCounters t) (j : TaskIndex) :
    FreshCounters (Function.update s.tasks i t j) := by
  by_cases hj : j = i
  · subst j
    simpa using ht
  · simpa [hj] using h j

theorem createTask_counters {P : Platform} {s : Sys} (cfg : TaskConfig) (hc : ColdCounters s)
    (hf : ∀ i, FreshCounters (s.tasks i)) :
    ColdCounters (createTask P s cfg).1 ∧ ∀ i, FreshCounters ((createTask P s cfg).1.tasks i) := by
  rw [createTask]
  split
  · rename_i hlt
    split
    · exact ⟨hc, hf⟩
    · refine ⟨⟨hc.blackbox, hc.restartCounts, hc.capFailCount⟩, freshCounters_update hf ?_⟩
      exact ⟨rfl, rfl, (hf ⟨s.taskCount, hlt⟩).sends, Or.inr rfl⟩
  · exact ⟨hc, hf⟩

theorem nativeCreateTask_counters {P : Platform} {s : Sys} {cfg : NativeTaskConfig}
    {r : Sys × Option TaskIndex} (hc : ColdCounters s) (hf : ∀ i, FreshCounters (s.tasks i))
    (h : nativeCreateTask P s cfg = .ok r) :
    ColdCounters r.1 ∧ ∀ i, FreshCounters (r.1.tasks i) := by
  rw [nativeCreateTask] at h
  split at h
  · rename_i hlt
    split at h
    · cases h
      exact ⟨hc, hf⟩
    · dsimp only at h
      split at h
      · cases h
        exact ⟨hc, hf⟩
      · split at h
        · cases h
          exact ⟨hc, hf⟩
        · split at h
          · cases h
          · cases h
            refine ⟨⟨hc.blackbox, hc.restartCounts, hc.capFailCount⟩, freshCounters_update hf ?_⟩
            exact ⟨rfl, rfl, (hf ⟨cfg.taskId, hlt⟩).sends, Or.inr rfl⟩
  · cases h
    exact ⟨hc, hf⟩

theorem bootCall_counters {P : Platform} {s u : Sys} {c : BootCall}
    (hi : ColdCounters s ∧ ∀ i, FreshCounters (s.tasks i)) (h : bootCall P s c = .ok u) :
    ColdCounters u ∧ ∀ i, FreshCounters (u.tasks i) := by
  obtain ⟨hc, hf⟩ := hi
  cases c with
  | createTask cfg => cases h; exact createTask_counters cfg hc hf
  | nativeCreateTask cfg =>
    obtain ⟨r, hr, h⟩ := bind_eq_ok.mp h
    cases h
    exact nativeCreateTask_counters hc hf hr
  | assignChannel channelId producer consumer | assignNativeChannel channelId producer consumer =>
    obtain ⟨pool, -, rfl⟩ := bootAssign_ok h
    exact ⟨⟨hc.blackbox, hc.restartCounts, hc.capFailCount⟩, hf⟩
  | sealChannels | provisionKey key | validateFull token caller =>
    cases h
    exact ⟨⟨hc.blackbox, hc.restartCounts, hc.capFailCount⟩, hf⟩

/-- What a call of the boot sequence leaves alone; a slot it fills is at the start of its period. -/
structure BootFrame (s u : Sys) : Prop where
  pmp : u.pmp = s.pmp
  degradeLogged : u.degradeLogged = s.degradeLogged
  channels : u.pool.channels = s.pool.channels
  tasks : ∀ i, u.tasks i = s.tasks i ∨ (u.tasks i).periodCounter = 0

theorem BootFrame.refl (s : Sys) : BootFrame s s := ⟨rfl, rfl, rfl, fun _ => .inl rfl⟩

theorem fillSlot_fresh {tasks : TaskIndex → Task} {j : TaskIndex} {t : Task}
    (ht : t.periodCounter = 0) (i : TaskIndex) : Function.update tasks j t i = tasks i ∨
      (Function.update tasks j t i).periodCounter = 0 := by
  by_cases hi : i = j
  · subst i
    exact .inr (by rwa [Function.update_self])
  · exact .inl (Function.update_of_ne hi _ _)

theorem assignChannel_channels {p q : ChannelPool} {channelId producer consumer : ℕ}
    (h : p.assignChannel channelId producer consumer = some q) : q.channels = p.channels := by
  rw [ChannelPool.assignChannel] at h
  repeat' split at h
  all_goals first
    | (cases h; rfl)
    | cases h

theorem bootCall_frame {P : Platform} {s u : Sys} {c : BootCall} (h : bootCall P s c = .ok u) :
    BootFrame s u := by
  cases c with
  | createTask cfg =>
    cases h
    rw [createTask]
    repeat' split
    all_goals first
      | exact .refl s
      | exact ⟨rfl, rfl, rfl, fillSlot_fresh rfl⟩
  | nativeCreateTask cfg =>
    obtain ⟨r, hr, h⟩ := bind_eq_ok.mp h
    cases h
    rw [nativeCreateTask] at hr
    dsimp only at hr
    repeat' split at hr
    all_goals first
      | (cases hr; exact .refl s)
      | (cases hr; exact ⟨rfl, rfl, rfl, fillSlot_fresh rfl⟩)
      | cases hr
  | assignChannel channelId producer consumer | assignNativeChannel channelId producer consumer =>
    obtain ⟨pool, hpool, rfl⟩ := bootAssign_ok h
    exact ⟨rfl, rfl, assignChannel_channels hpool, fun _ => .inl rfl⟩
  | sealChannels | provisionKey key | validateFull token caller =>
    cases h
    exact ⟨rfl, rfl, rfl, fun _ => .inl rfl⟩

theorem initial_counters {P : Platform} {s : Sys} (h : (kernel P).Initial s) :
    ColdCounters s ∧ ∀ i, FreshCounters (s.tasks i) := by
  obtain ⟨q, best, pmp, ⟨hc, hf⟩, -, rfl⟩ := initial_of_boot
    (I := fun q => ColdCounters q ∧ ∀ i, FreshCounters (q.tasks i))
    (fun _ _ _ => ⟨⟨rfl, rfl, rfl⟩, fun _ => ⟨rfl, rfl, rfl, Or.inl rfl⟩⟩) bootCall_counters h
  refine ⟨⟨hc.blackbox, hc.restartCounts, hc.capFailCount⟩, freshCounters_update hf ?_⟩
  have hbest := hf best
  exact ⟨hbest.remaining, hbest.watchdog, hbest.sends, hbest.limit⟩

end KernelBoot
