import Sipahi.KernelHandlers
import Sipahi.KernelTrap
import Mathlib.Data.List.FinRange
import Mathlib.Data.List.Perm.Subperm

/-!
# What the kernel does before it selects a task

Every path from trap entry to the selection is related to its start by `Evolves`; the proofs
about whole runs use that relation and not the code of the phases.
-/
namespace KernelEvolution

open KernelTypes KernelPolicy KernelCapability KernelState KernelTrapFrame KernelScheduler
open KernelSyscall KernelTrap KernelHandlers RiscvHart GuardedExecution

/-- The part of a task that is written when it is created and never again. -/
def config (t : Task) : Task :=
  { t with
    state := .dead
    budgetCycles := 0
    remainingCycles := 0
    periodCounter := 0
    watchdogCounter := 0
    syscallCount := 0
    ipcSendCount := 0 }

theorem config_field {α : Type*} (f : Task → α) (hf : ∀ t, f (config t) = f t) {t u : Task}
    (h : config t = config u) : f t = f u := by
  rw [← hf t, h, hf]

theorem config_id {t u : Task} (h : config t = config u) : t.id = u.id :=
  config_field Task.id (fun _ => rfl) h

theorem config_priority {t u : Task} (h : config t = config u) : t.priority = u.priority :=
  config_field Task.priority (fun _ => rfl) h

theorem config_dal {t u : Task} (h : config t = config u) : t.dal = u.dal :=
  config_field Task.dal (fun _ => rfl) h

theorem config_originalBudget {t u : Task} (h : config t = config u) :
    t.originalBudget = u.originalBudget :=
  config_field Task.originalBudget (fun _ => rfl) h

theorem config_entry {t u : Task} (h : config t = config u) : t.entry = u.entry :=
  config_field Task.entry (fun _ => rfl) h

theorem config_stackTop {t u : Task} (h : config t = config u) : t.stackTop = u.stackTop :=
  config_field Task.stackTop (fun _ => rfl) h

/-- Only the saved context of `task` may differ. -/
structure HartKept (task : TaskIndex) (h k : Hart Slot) : Prop where
  regs : k.regs = h.regs
  csrs : k.csrs = h.csrs
  frame : ∀ offset, k.mem (.frame offset) = h.mem (.frame offset)
  kernelStack : ∀ r, k.mem (.kernelStack r) = h.mem (.kernelStack r)
  contexts : ∀ j offset, j ≠ task → k.mem (.context j offset) = h.mem (.context j offset)

theorem HartKept.refl (task : TaskIndex) (h : Hart Slot) : HartKept task h h :=
  ⟨rfl, rfl, fun _ => rfl, fun _ => rfl, fun _ _ _ => rfl⟩

theorem HartKept.trans {task : TaskIndex} {h k m : Hart Slot} (a : HartKept task h k)
    (b : HartKept task k m) : HartKept task h m where
  regs := b.regs.trans a.regs
  csrs := b.csrs.trans a.csrs
  frame := fun o => (b.frame o).trans (a.frame o)
  kernelStack := fun r => (b.kernelStack r).trans (a.kernelStack r)
  contexts := fun j o hj => (b.contexts j o hj).trans (a.contexts j o hj)

theorem writeContext_kept (h : Hart Slot) (task : TaskIndex) (context : ℕ → ℕ) :
    HartKept task h (writeContext h task context) :=
  ⟨rfl, rfl, fun _ => rfl, fun _ => rfl, fun j o hj => by simp [writeContext, hj]⟩

def AtMostOneIsolated (s : Sys) : Prop :=
  ∀ i j, i.val < s.taskCount → j.val < s.taskCount → (s.tasks i).state = .isolated →
    (s.tasks j).state = .isolated → i = j

structure Evolves (s u : Sys) : Prop where
  taskCount : u.taskCount = s.taskCount
  currentTask : u.currentTask = s.currentTask
  config : ∀ i, config (u.tasks i) = config (s.tasks i)
  dead : ∀ i, (u.tasks i).state = .dead ↔ (s.tasks i).state = .dead
  isolated : ∀ i, (s.tasks i).state = .isolated → (u.tasks i).state = .isolated
  running : ∀ i, (u.tasks i).state = .running → (s.tasks i).state = .running
  owns : ∀ id, u.broker.cache.Owns id → s.broker.cache.Owns id
  purged : ∀ i, (u.tasks i).state = .isolated →
    (s.tasks i).state = .isolated ∨ ¬ u.broker.cache.Owns (u.tasks i).id
  few : AtMostOneIsolated s → AtMostOneIsolated u
  hart : HartKept s.currentTask s.hart u.hart

/-- No task becomes `Ready`. -/
def NoWake (s u : Sys) : Prop :=
  ∀ i, (u.tasks i).state = .ready → (s.tasks i).state = .ready

theorem Evolves.refl (s : Sys) : Evolves s s where
  taskCount := rfl
  currentTask := rfl
  config := fun _ => rfl
  dead := fun _ => Iff.rfl
  isolated := fun _ h => h
  running := fun _ h => h
  owns := fun _ h => h
  purged := fun _ h => Or.inl h
  few := fun h => h
  hart := .refl _ _

theorem Evolves.trans {s u v : Sys} (a : Evolves s u) (b : Evolves u v) : Evolves s v where
  taskCount := b.taskCount.trans a.taskCount
  currentTask := b.currentTask.trans a.currentTask
  config := fun i => (b.config i).trans (a.config i)
  dead := fun i => (b.dead i).trans (a.dead i)
  isolated := fun i h => b.isolated i (a.isolated i h)
  running := fun i h => a.running i (b.running i h)
  owns := fun id h => a.owns id (b.owns id h)
  purged := by
    intro i h
    rcases b.purged i h with h' | h'
    · rcases a.purged i h' with h'' | h''
      · exact Or.inl h''
      · refine Or.inr fun ho => h'' ?_
        rw [← config_id (b.config i)]
        exact b.owns _ ho
    · exact Or.inr h'
  few := fun h => b.few (a.few h)
  hart := a.hart.trans (a.currentTask ▸ b.hart)

theorem Evolves.currentAlive {s u : Sys} (h : Evolves s u) (hc : s.current.state ≠ .dead) :
    u.current.state ≠ .dead := by
  rw [Sys.current]
  rw [h.currentTask, Ne, h.dead]
  exact hc

theorem NoWake.trans {s u v : Sys} (a : NoWake s u) (b : NoWake u v) : NoWake s v :=
  fun i h => a i (b i h)

/-- A pointwise rewrite that keeps configurations and stops or wakes, but never runs, buries or
isolates, a task. -/
theorem tasks_evolves {s u : Sys} (hc : u.taskCount = s.taskCount)
    (hcur : u.currentTask = s.currentTask) (hcfg : ∀ i, config (u.tasks i) = config (s.tasks i))
    (hst : ∀ i, (u.tasks i).state = (s.tasks i).state ∨
      (s.tasks i).live ∧ ((u.tasks i).state = .ready ∨ (u.tasks i).state = .suspended))
    (hb : u.broker = s.broker) (hh : HartKept s.currentTask s.hart u.hart) : Evolves s u where
  taskCount := hc
  currentTask := hcur
  config := hcfg
  dead := fun i => by
    rcases hst i with h | ⟨hl, h | h⟩
    · rw [h]
    · simp [h, hl.1]
    · simp [h, hl.1]
  isolated := fun i hs => by
    rcases hst i with h | ⟨hl, -⟩
    · rw [h, hs]
    · exact absurd hs hl.2
  running := fun i hu => by
    rcases hst i with h | ⟨-, h | h⟩
    · rw [← h, hu]
    · simp [h] at hu
    · simp [h] at hu
  owns := fun id h => by rwa [hb] at h
  purged := fun i hu => by
    rcases hst i with h | ⟨-, h | h⟩
    · exact Or.inl (h ▸ hu)
    · simp [h] at hu
    · simp [h] at hu
  few := fun hf i j hi hj ui uj => by
    have back : ∀ k, (u.tasks k).state = .isolated → (s.tasks k).state = .isolated := by
      intro k uk
      rcases hst k with h | ⟨-, h | h⟩
      · rw [← h, uk]
      · simp [h] at uk
      · simp [h] at uk
    exact hf i j (hc ▸ hi) (hc ▸ hj) (back i ui) (back j uj)
  hart := hh

theorem evolves_of_states {s u : Sys} (hc : u.taskCount = s.taskCount)
    (hcur : u.currentTask = s.currentTask) (hcfg : ∀ i, config (u.tasks i) = config (s.tasks i))
    (hst : ∀ i, (u.tasks i).state = (s.tasks i).state) (hb : u.broker = s.broker)
    (hh : HartKept s.currentTask s.hart u.hart) : Evolves s u :=
  tasks_evolves hc hcur hcfg (fun i => Or.inl (hst i)) hb hh

/-! ## Policy actions -/

/-- Records and policy counters are all that differs. -/
structure Annotated (s q : Sys) : Prop where
  tasks : q.tasks = s.tasks
  taskCount : q.taskCount = s.taskCount
  currentTask : q.currentTask = s.currentTask
  degraded : q.degraded = s.degraded
  broker : q.broker = s.broker
  pool : q.pool = s.pool
  hart : q.hart = s.hart

theorem Annotated.refl (s : Sys) : Annotated s s := ⟨rfl, rfl, rfl, rfl, rfl, rfl, rfl⟩

theorem Annotated.log {s q : Sys} (h : Annotated s q) (event : KernelBlackbox.BlackboxEvent)
    (taskId : ℕ) (data : List UInt8) : Annotated s (q.log event taskId data) :=
  ⟨h.tasks, h.taskCount, h.currentTask, h.degraded, h.broker, h.pool, h.hart⟩

theorem Annotated.evolves {s q : Sys} (h : Annotated s q) : Evolves s q :=
  evolves_of_states h.taskCount h.currentTask (fun i => by rw [h.tasks]) (fun i => by rw [h.tasks])
    h.broker (h.hart ▸ .refl _ _)

theorem Annotated.noWake {s q : Sys} (h : Annotated s q) : NoWake s q :=
  fun i hi => by rwa [h.tasks] at hi

/-- The effect of an action on a task, without its records. -/
def Acts (P : Platform) (q : Sys) (id : TaskIndex) (mode : FailureMode) (u : Sys) : Prop :=
  match mode with
  | .restart => u = restartTask P q id
  | .isolate => isolateTask q id = .ok u
  | .degrade => u = degradeSystem q
  | .failover => u = degradeSystem q
  | .alert => u = q
  | .shutdown => False

theorem applyAction_acts {P : Platform} {s u : Sys} {id : TaskIndex} {mode : FailureMode}
    (h : applyAction P s id mode = .ok u) : ∃ q, Annotated s q ∧ Acts P q id mode u := by
  cases mode with
  | restart =>
    exact ⟨s.log .taskRestart (s.tasks id).id [], (Annotated.refl s).log .., (Except.ok.inj h).symm⟩
  | isolate => exact ⟨s.log .policyIsolate (s.tasks id).id [], (Annotated.refl s).log .., h⟩
  | degrade =>
    simp only [applyAction] at h
    split at h
    · exact ⟨s, .refl s, (Except.ok.inj h).symm⟩
    · have hq : Annotated s { s with degradeLogged := true } :=
        ⟨rfl, rfl, rfl, rfl, rfl, rfl, rfl⟩
      exact ⟨_, hq.log .policyDegrade (s.tasks id).id [], (Except.ok.inj h).symm⟩
  | failover =>
    exact ⟨s.log .policyFailover (s.tasks id).id [], (Annotated.refl s).log ..,
      (Except.ok.inj h).symm⟩
  | alert => exact ⟨s, .refl s, (Except.ok.inj h).symm⟩
  | shutdown => cases h

/-- The answer of the policy to an event of a task. -/
def answer (s : Sys) (taskId : ℕ) (event : PolicyEvent) (dal : ℕ) : FailureMode :=
  decideAction event.code (restartCountOf s.restartCounts taskId) dal

theorem respond_acts {P : Platform} {s u : Sys} {id : TaskIndex} {taskId dal : ℕ}
    {event : PolicyEvent} (h : respond P s id taskId event dal = .ok u) :
    ∃ q, Annotated s q ∧ Acts P q id (answer s taskId event dal) u := by
  simp only [respond, consultPolicy, applyPolicy_fst] at h
  obtain ⟨q, hq, ha⟩ := applyAction_acts h
  exact ⟨q, ⟨hq.tasks, hq.taskCount, hq.currentTask, hq.degraded, hq.broker, hq.pool, hq.hart⟩, ha⟩

theorem isolateTask_ok {s u : Sys} {id : TaskIndex} (h : isolateTask s id = .ok u) :
    u = markIsolated s id ∧ isolatedCount u < 2 := by
  simp only [isolateTask] at h
  split at h
  · simp [consultPolicy, applySystemAction, PolicyEvent.code, decideAction] at h
  · cases h
    exact ⟨rfl, by omega⟩

theorem pmpIntegrityPhase_ok {s u : Sys} (h : pmpIntegrityPhase s = .ok u) : u = s := by
  rw [pmpIntegrityPhase] at h
  split at h
  · exact (Except.ok.inj h).symm
  · simp [consultPolicy, applySystemAction, PolicyEvent.code, decideAction] at h

theorem isolatedCount_lt_two {s : Sys} (h : isolatedCount s < 2) : AtMostOneIsolated s := by
  intro i j hi hj si sj
  by_contra hne
  have hmem : ∀ k : TaskIndex, k.val < s.taskCount → (s.tasks k).state = .isolated →
      k ∈ (List.finRange maxTasks).filter fun i =>
        decide (i.val < s.taskCount) && (s.tasks i).state == .isolated := by
    intro k hk sk
    simp [hk, sk]
  have hsub : [i, j] ⊆ (List.finRange maxTasks).filter fun i =>
      decide (i.val < s.taskCount) && (s.tasks i).state == .isolated := by
    intro k hk
    rcases List.mem_pair.mp hk with rfl | rfl
    · exact hmem _ hi si
    · exact hmem _ hj sj
  have hlen := ((List.nodup_cons.mpr ⟨by simpa using hne, List.nodup_singleton j⟩).subperm
    hsub).length_le
  rw [isolatedCount] at h
  simp only [List.length_cons, List.length_nil] at hlen
  omega

theorem restartTask_evolves (P : Platform) (s : Sys) :
    Evolves s (restartTask P s s.currentTask) := by
  rw [restartTask]
  split
  · exact evolves_of_states rfl rfl (fun _ => rfl) (fun _ => rfl) rfl (writeContext_kept _ _ _)
  · exact .refl s

theorem restartTask_tasks (P : Platform) (s : Sys) (id : TaskIndex) :
    (restartTask P s id).tasks = s.tasks := by
  obtain ⟨hart, hrest⟩ := restartTask_rest P s id
  rw [hrest]

theorem isolateTask_evolves {s u : Sys} {id : TaskIndex} (hid : (s.tasks id).state ≠ .dead)
    (h : isolateTask s id = .ok u) : Evolves s u := by
  obtain ⟨rfl, hcount⟩ := isolateTask_ok h
  have hfew := isolatedCount_lt_two hcount
  rw [markIsolated] at hfew ⊢
  split at hfew
  · rename_i hlt
    rw [if_pos hlt]
    refine ⟨rfl, rfl, ?_, ?_, ?_, ?_, ?_, ?_, fun _ => hfew, .refl _ _⟩
    · intro i
      by_cases hi : i = id
      · subst i
        simp [config]
      · simp [hi]
    · intro i
      by_cases hi : i = id
      · subst i
        simpa using hid
      · simp [hi]
    · intro i hs
      by_cases hi : i = id
      · subst i
        simp
      · simpa [hi] using hs
    · intro i hu
      by_cases hi : i = id
      · subst i
        simp at hu
      · simpa [hi] using hu
    · intro k hk
      exact invalidateByOwner_owns hk
    · intro i hu
      by_cases hi : i = id
      · subst i
        right
        simpa [Broker.invalidateTaskCapabilities] using
          invalidateByOwner_not_owns s.broker.cache (s.tasks id).id
      · left
        simpa [hi] using hu
  · rename_i hlt
    rw [if_neg hlt]
    exact .refl s

theorem markIsolated_noWake (s : Sys) (id : TaskIndex) : NoWake s (markIsolated s id) := by
  intro i h
  rcases (markIsolated_frame s id).state i with hsame | ⟨-, hnow⟩
  · rwa [hsame] at h
  · rw [hnow] at h
    cases h

theorem degradeTask_config (t : Task) : config (degradeTask t) = config t := by
  rw [degradeTask]
  split <;> rfl

/-- Degradation suspends a live task or leaves the state alone. -/
theorem degradeTask_state (t : Task) :
    (degradeTask t).state = t.state ∨ t.live ∧ (degradeTask t).state = .suspended := by
  rw [degradeTask]
  split
  · rename_i h
    exact Or.inr ⟨h.2, rfl⟩
  · exact Or.inl rfl

theorem degradeSystem_task (s : Sys) (i : TaskIndex) :
    ((degradeSystem s).tasks i).state = (s.tasks i).state ∨
      (s.tasks i).live ∧ ((degradeSystem s).tasks i).state = .suspended := by
  simp only [degradeSystem]
  split
  · exact degradeTask_state _
  · exact Or.inl rfl

theorem degradeSystem_config (s : Sys) (i : TaskIndex) :
    config ((degradeSystem s).tasks i) = config (s.tasks i) := by
  simp only [degradeSystem]
  split
  · exact degradeTask_config _
  · rfl

theorem degradeSystem_evolves (s : Sys) : Evolves s (degradeSystem s) :=
  tasks_evolves rfl rfl (degradeSystem_config s)
    (fun i => (degradeSystem_task s i).imp_right fun h => ⟨h.1, Or.inr h.2⟩) rfl (.refl _ _)

theorem degradeSystem_noWake (s : Sys) : NoWake s (degradeSystem s) := by
  intro i hu
  rcases degradeSystem_task s i with h | ⟨-, h⟩
  · rw [← h, hu]
  · rw [h] at hu
    cases hu

/-- An action on the current task, or one that does not restart. -/
theorem acts_evolves {P : Platform} {q u : Sys} {id : TaskIndex} {mode : FailureMode}
    (hid : id = q.currentTask ∨ mode ≠ .restart) (hdead : (q.tasks id).state ≠ .dead)
    (h : Acts P q id mode u) : Evolves q u := by
  cases mode with
  | restart =>
    obtain rfl : u = restartTask P q id := h
    obtain rfl : id = q.currentTask := hid.resolve_right (by simp)
    exact restartTask_evolves P q
  | isolate => exact isolateTask_evolves hdead h
  | degrade => obtain rfl : u = degradeSystem q := h; exact degradeSystem_evolves q
  | failover => obtain rfl : u = degradeSystem q := h; exact degradeSystem_evolves q
  | alert => obtain rfl : u = q := h; exact .refl u
  | shutdown => exact h.elim

theorem acts_noWake {P : Platform} {q u : Sys} {id : TaskIndex} {mode : FailureMode}
    (h : Acts P q id mode u) : NoWake q u := by
  cases mode with
  | restart =>
    obtain rfl : u = restartTask P q id := h
    intro i hi
    rwa [restartTask_tasks] at hi
  | isolate =>
    obtain ⟨rfl, -⟩ := isolateTask_ok (show isolateTask q id = .ok u from h)
    exact markIsolated_noWake q id
  | degrade => obtain rfl : u = degradeSystem q := h; exact degradeSystem_noWake q
  | failover => obtain rfl : u = degradeSystem q := h; exact degradeSystem_noWake q
  | alert => obtain rfl : u = q := h; exact fun _ hi => hi
  | shutdown => exact h.elim

theorem respond_evolves {P : Platform} {s u : Sys} {id : TaskIndex} {taskId dal : ℕ}
    {event : PolicyEvent} (hid : id = s.currentTask ∨ answer s taskId event dal ≠ .restart)
    (hdead : (s.tasks id).state ≠ .dead) (h : respond P s id taskId event dal = .ok u) :
    Evolves s u := by
  obtain ⟨q, hq, ha⟩ := respond_acts h
  refine hq.evolves.trans (acts_evolves ?_ ?_ ha)
  · rwa [hq.currentTask]
  · rwa [hq.tasks]

theorem respond_noWake {P : Platform} {s u : Sys} {id : TaskIndex} {taskId dal : ℕ}
    {event : PolicyEvent} (h : respond P s id taskId event dal = .ok u) : NoWake s u := by
  obtain ⟨q, hq, ha⟩ := respond_acts h
  exact hq.noWake.trans (acts_noWake ha)

/-! ## Phases -/

/-- A rewrite of one task that keeps its state. -/
theorem setTask_evolves {s : Sys} {i : TaskIndex} {t : Task} (hc : config t = config (s.tasks i))
    (hst : t.state = (s.tasks i).state) : Evolves s (s.setTask i t) := by
  refine evolves_of_states rfl rfl (fun j => ?_) (fun j => ?_) rfl (.refl _ _)
  · by_cases hj : j = i
    · subst j
      simpa using hc
    · simp [hj]
  · by_cases hj : j = i
    · subst j
      simpa using hst
    · simp [hj]

theorem setTask_noWake {s : Sys} {i : TaskIndex} {t : Task}
    (hst : t.state = .ready → (s.tasks i).state = .ready) : NoWake s (s.setTask i t) := by
  intro j hj
  by_cases hji : j = i
  · subst j
    exact hst (by simpa using hj)
  · simpa [hji] using hj

theorem periodTask_config (t : Task) : config (periodTask t) = config t := by
  simp only [periodTask]
  split
  · split <;> rfl
  · rfl

theorem periodTask_state (t : Task) : (periodTask t).state = t.state ∨
    t.state = .suspended ∧ (periodTask t).state = .ready := by
  simp only [periodTask]
  split
  · split
    · by_cases h : t.state = .suspended
      · exact Or.inr ⟨h, by simp [h]⟩
      · exact Or.inl (by simp [h])
    · exact Or.inl rfl
  · exact Or.inl rfl

theorem periodTask_budget (t : Task) : (periodTask t).budgetCycles = t.budgetCycles := by
  simp only [periodTask]
  split
  · split <;> rfl
  · rfl

theorem live_of_suspended {t : Task} (h : t.state = .suspended) : t.live := by
  simp [Task.live, h]

theorem periodPhase_evolves (s : Sys) : Evolves s (periodPhase s) := by
  refine tasks_evolves rfl rfl (fun i => ?_) (fun i => ?_) rfl (.refl _ _)
  · simp only [periodPhase]
    split
    · exact periodTask_config _
    · rfl
  · simp only [periodPhase]
    split
    · exact (periodTask_state _).imp_right fun h => ⟨live_of_suspended h.1, Or.inl h.2⟩
    · exact Or.inl rfl

theorem recoverTask_config (t : Task) : config (recoverTask t) = config t := by
  rw [recoverTask]
  split <;> rfl

theorem recoverTask_state (t : Task) : (recoverTask t).state = t.state ∨
    t.state = .suspended ∧ (recoverTask t).state = .ready := by
  rw [recoverTask]
  split
  · rename_i h
    exact Or.inr ⟨h.2, rfl⟩
  · exact Or.inl rfl

theorem tryRecoverFromDegrade_evolves (s : Sys) : Evolves s (tryRecoverFromDegrade s) := by
  rw [tryRecoverFromDegrade]
  split
  · refine tasks_evolves rfl rfl (fun i => ?_) (fun i => ?_) rfl (.refl _ _)
    · simp only [log_tasks]
      split
      · exact recoverTask_config _
      · rfl
    · simp only [log_tasks]
      split
      · exact (recoverTask_state _).imp_right fun h => ⟨live_of_suspended h.1, Or.inl h.2⟩
      · exact Or.inl rfl
  · exact .refl s

theorem tickBeforeWatchdog_ok {s u : Sys} (h : tickBeforeWatchdog s = .ok u) :
    u = tryRecoverFromDegrade (periodPhase { s with blackbox := s.blackbox.advanceTick }) := by
  rw [tickBeforeWatchdog] at h
  obtain ⟨q, hq, hu⟩ := bind_eq_ok.mp h
  rw [pmpIntegrityPhase_ok hq] at hu
  exact (Except.ok.inj hu).symm

theorem tickBeforeWatchdog_evolves {s u : Sys} (h : tickBeforeWatchdog s = .ok u) :
    Evolves s u := by
  rw [tickBeforeWatchdog_ok h]
  have h0 : Evolves s { s with blackbox := s.blackbox.advanceTick } :=
    evolves_of_states rfl rfl (fun _ => rfl) (fun _ => rfl) rfl (.refl _ _)
  exact (h0.trans (periodPhase_evolves _)).trans (tryRecoverFromDegrade_evolves _)

theorem watchdogCount_config (t : Task) : config (watchdogCount t) = config t := by
  simp only [watchdogCount]
  split <;> split <;> rfl

theorem watchdogCount_state (t : Task) : (watchdogCount t).state = t.state := by
  simp only [watchdogCount]
  split <;> split <;> rfl

theorem watchdogCount_budget (t : Task) : (watchdogCount t).budgetCycles = t.budgetCycles := by
  simp only [watchdogCount]
  split <;> split <;> rfl

theorem clearWatchdog_evolves (s : Sys) (w : TaskIndex) : Evolves s (clearWatchdog s w) :=
  setTask_evolves rfl rfl

theorem clearWatchdog_noWake (s : Sys) (w : TaskIndex) : NoWake s (clearWatchdog s w) :=
  setTask_noWake fun h => h

/-- A watchdog timeout is never answered with a restart. -/
theorem watchdog_answer (s : Sys) (taskId dal : ℕ) :
    answer s taskId .watchdogTimeout dal = .failover ∨
      answer s taskId .watchdogTimeout dal = .degrade := by
  rw [answer]
  simp only [PolicyEvent.code, decideAction]
  split
  · exact Or.inl rfl
  · exact Or.inr rfl

theorem watchdog_answer_ne_restart (s : Sys) (taskId dal : ℕ) :
    answer s taskId .watchdogTimeout dal ≠ .restart := by
  rcases watchdog_answer s taskId dal with h | h <;> simp [h]

theorem timesOut_running {t : Task} (h : watchdogTimesOut t = true) : t.state = .running := by
  simp only [watchdogTimesOut, Bool.and_eq_true, beq_iff_eq] at h
  exact h.1

theorem watchdogTask_evolves {P : Platform} {s u : Sys} {w : TaskIndex}
    (h : watchdogTask P s w = .ok u) : Evolves s u := by
  simp only [watchdogTask] at h
  split at h
  · have h1 : Evolves s (s.setTask w (watchdogCount (s.tasks w))) :=
      setTask_evolves (watchdogCount_config _) (watchdogCount_state _)
    split at h
    · rename_i ht
      obtain ⟨q, hq, hu⟩ := bind_eq_ok.mp h
      cases hu
      have hr : Evolves (s.setTask w (watchdogCount (s.tasks w))) q := by
        refine ((Annotated.refl _).log ..).evolves.trans
          (respond_evolves (Or.inr (watchdog_answer_ne_restart _ _ _)) ?_ hq)
        simp [watchdogCount_state, timesOut_running ht]
      exact (h1.trans hr).trans (clearWatchdog_evolves q w)
    · cases h
      exact h1
  · cases h
    exact .refl s

theorem watchdogPhase_evolves {P : Platform} {s u : Sys} (h : watchdogPhase P s = .ok u) :
    Evolves s u := by
  apply run_keeps (I := Evolves s) _ (.refl s) h
  intro q w x hq hw
  exact hq.trans (watchdogTask_evolves hw)

-- The general form keeps the kernel from unfolding a subtraction of `CYCLES_PER_TICK`.
theorem config_set (t : Task) (remaining : ℕ) (state : TaskState) :
    config { t with remainingCycles := remaining, state := state } = config t := rfl

theorem chargeTick_config (t : Task) : config (chargeTick t) = config t :=
  config_set t _ _

theorem budgetActive_running {t : Task} (h : budgetActive t = true) : t.state = .running := by
  simp only [budgetActive, Bool.and_eq_true, beq_iff_eq] at h
  exact h.2

theorem chargeTick_state {t : Task} (h : t.state = .running) :
    (chargeTick t).state = .running ∨ (chargeTick t).state = .suspended := by
  simp only [chargeTick, h]
  split
  · exact Or.inr rfl
  · exact Or.inl rfl

theorem chargeTick_evolves {s : Sys} {old : TaskIndex} (h : (s.tasks old).state = .running) :
    Evolves s (s.setTask old (chargeTick (s.tasks old))) := by
  refine tasks_evolves rfl rfl (fun i => ?_) (fun i => ?_) rfl (.refl _ _)
  · by_cases hi : i = old
    · subst i
      simp [chargeTick_config]
    · simp [hi]
  · by_cases hi : i = old
    · subst i
      rcases chargeTick_state h with k | k
      · exact Or.inl (by simp [h, k])
      · exact Or.inr ⟨by simp [Task.live, h], Or.inr (by simp [k])⟩
    · exact Or.inl (by simp [hi])

theorem budgetPhase_evolves {P : Platform} {s u : Sys}
    (h : budgetPhase P s s.currentTask = .ok u) : Evolves s u := by
  simp only [budgetPhase] at h
  split at h
  · rename_i ha
    have hrun := budgetActive_running ha
    have h1 := chargeTick_evolves hrun
    split at h
    · refine h1.trans (((Annotated.refl _).log ..).evolves.trans
        (respond_evolves (Or.inl rfl) ?_ h))
      rcases chargeTick_state hrun with k | k <;> simp [k]
    · cases h
      exact h1
  · cases h
    exact .refl s

theorem tickPhases_evolves {P : Platform} {s u : Sys} (h : tickPhases P s = .ok u) :
    Evolves s u := by
  rw [tickPhases] at h
  obtain ⟨q, hq, h⟩ := bind_eq_ok.mp h
  obtain ⟨w, hw, h⟩ := bind_eq_ok.mp h
  have h1 := (tickBeforeWatchdog_evolves hq).trans (watchdogPhase_evolves hw)
  rw [← h1.currentTask] at h
  exact h1.trans (budgetPhase_evolves h)

end KernelEvolution
