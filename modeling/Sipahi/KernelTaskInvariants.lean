import Sipahi.KernelBoot
import Sipahi.KernelReference

/-!
# Scheduling and isolation invariants

`TaskInv` holds at every return to U-mode and inside a trap up to the selection; the priority
order is lost there and restored by the selection.
-/
namespace KernelTaskInvariants

open KernelTypes KernelPolicy KernelState KernelTrapFrame KernelScheduler KernelTrap
open KernelEvolution KernelSelection KernelBoot KernelReference GuardedExecution

structure TaskInv (s : Sys) : Prop where
  count_le : s.taskCount ≤ maxTasks
  created : ∀ i, (s.tasks i).state ≠ .dead → i.val < s.taskCount ∧ (s.tasks i).id = i.val
  currentAlive : s.current.state ≠ .dead
  running : ∀ i, (s.tasks i).state = .running → i = s.currentTask
  purged : ∀ i, (s.tasks i).state = .isolated → ¬ s.broker.cache.Owns (s.tasks i).id
  few : AtMostOneIsolated s

theorem taskInv_sameKernel {s u : Sys} (h : SameKernel s u) (hi : TaskInv s) : TaskInv u where
  count_le := h.taskCount ▸ hi.count_le
  created := by rw [h.tasks, h.taskCount]; exact hi.created
  currentAlive := by unfold Sys.current; rw [h.tasks, h.currentTask]; exact hi.currentAlive
  running := by rw [h.tasks, h.currentTask]; exact hi.running
  purged := by rw [h.tasks, h.broker]; exact hi.purged
  few := by unfold AtMostOneIsolated; rw [h.tasks, h.taskCount]; exact hi.few

theorem taskInv_evolves {s u : Sys} (h : Evolves s u) (hi : TaskInv s) : TaskInv u where
  count_le := h.taskCount ▸ hi.count_le
  created := fun i hd => by
    rw [Ne, h.dead] at hd
    rw [h.taskCount, config_id (h.config i)]
    exact hi.created i hd
  currentAlive := h.currentAlive hi.currentAlive
  running := fun i hr => by
    rw [h.currentTask]
    exact hi.running i (h.running i hr)
  purged := fun i hu => by
    rcases h.purged i hu with hs | hn
    · intro ho
      rw [config_id (h.config i)] at ho
      exact hi.purged i hs (h.owns _ ho)
    · exact hn
  few := h.few hi.few

theorem current_inTable {s : Sys} (hi : TaskInv s) : s.currentTask.val < s.taskCount :=
  (hi.created _ hi.currentAlive).1

theorem selectable_not_isolated {s : Sys} {i : TaskIndex} (h : Selectable s i) :
    (s.tasks i).state ≠ .isolated := by
  intro hi
  have := isSelectable_iff.mp h.2
  simp [hi] at this

theorem selectable_alive {s : Sys} {i : TaskIndex} (h : Selectable s i) :
    (s.tasks i).state ≠ .dead := by
  intro hi
  have := isSelectable_iff.mp h.2
  simp [hi] at this

/-- The states around a hand-over: the target runs, everyone else is as before or `Ready`. -/
theorem handOver_state (tasks : TaskIndex → Task) (old : TaskIndex) {next i : TaskIndex} (hn : i ≠ next) :
    (handOver tasks old next i).state = (tasks i).state ∨
      (tasks i).state = .running ∧ (handOver tasks old next i).state = .ready := by
  rcases handOver_other tasks old hn with h | h
  · exact Or.inl h.1
  · exact Or.inr h.2

theorem handOver_isolated {tasks : TaskIndex → Task} (old : TaskIndex) {next : TaskIndex}
    (hn : (tasks next).state ≠ .isolated) (i : TaskIndex) :
    (handOver tasks old next i).state = .isolated ↔ (tasks i).state = .isolated := by
  by_cases hi : i = next
  · subst i
    simp [handOver_next, hn]
  · rcases handOver_state tasks old hi with h | ⟨h, k⟩
    · rw [h]
    · simp [h, k]

theorem handOver_dead {tasks : TaskIndex → Task} (old : TaskIndex) {next : TaskIndex}
    (hn : (tasks next).state ≠ .dead) (i : TaskIndex) :
    (handOver tasks old next i).state = .dead ↔ (tasks i).state = .dead := by
  by_cases hi : i = next
  · subst i
    simp [handOver_next, hn]
  · rcases handOver_state tasks old hi with h | ⟨h, k⟩
    · rw [h]
    · simp [h, k]

theorem taskInv_switched {P : Platform} {q u : Sys} {next : TaskIndex} {flow : Flow}
    (hi : TaskInv q) (hn : Selectable q next) (h : Switched P q q.currentTask next u flow) :
    TaskInv u := by
  obtain ⟨pmp, rfl⟩ := h.state
  have hdead := handOver_dead q.currentTask (selectable_alive hn)
  have hiso := handOver_isolated q.currentTask (selectable_not_isolated hn)
  have hcfg := handOver_config q.tasks q.currentTask next
  refine ⟨hi.count_le, fun i hd => ?_, ?_, fun i hr => ?_, fun i hu => ?_, ?_⟩
  · rw [Ne, hdead] at hd
    rw [config_id (hcfg i)]
    exact hi.created i hd
  · simp only [Sys.current, handOver_next]
    simp
  · by_contra hne
    rcases handOver_other q.tasks q.currentTask hne with ⟨he, hold⟩ | ⟨-, -, hr'⟩
    · have hrun : (q.tasks i).state = .running := he ▸ hr
      exact hold (hi.running i hrun) hrun
    · simp [hr'] at hr
  · rw [config_id (hcfg i)]
    exact hi.purged i ((hiso i).mp hu)
  · intro i j hic hjc ui uj
    exact hi.few i j hic hjc ((hiso i).mp ui) ((hiso j).mp uj)

theorem taskInv_select {P : Platform} {q w : Sys} {flow : Flow} (hi : TaskInv q)
    (h : doPrioritySelectAndSwitch P q q.currentTask = .ok (w, flow)) : TaskInv w := by
  rcases select_cases h with ⟨-, rfl, -⟩ | ⟨next, ht, hs⟩
  · exact hi
  · obtain ⟨-, hsel, -⟩ := switchTarget_some ht
    exact taskInv_switched hi (selectNext_some hsel).1 hs

theorem taskInv_serves {P : Platform} {u w : Sys} {mtime mcause syscallId arg0 arg1 arg2 : ℕ}
    {r : Option ℕ} (hi : TaskInv u)
    (h : Serves P u mtime mcause syscallId arg0 arg1 arg2 w r) : TaskInv w := by
  rcases serves_cases hi.currentAlive h with ⟨he, -, -⟩ | ⟨q, flow, hq, hw, -⟩
  · exact taskInv_evolves he hi
  · have he := atSelection_evolves hi.currentAlive hq
    rw [← he.currentTask] at hw
    exact taskInv_select (taskInv_evolves he hi) hw

theorem taskInv_trap {P : Platform} {s v : Sys} {e : TrapEvent} (hi : TaskInv s)
    (h : trap P s e = .ok v) : TaskInv v := by
  obtain ⟨u, args, w, r, ⟨hu, hs⟩, rfl⟩ := trap_ok h
  exact taskInv_sameKernel (leaveHandler_sameKernel P w r)
    (taskInv_serves (taskInv_sameKernel (entered_sameKernel hu) hi) hs)

theorem booted_alive {P : Platform} {q : Sys} {i : TaskIndex} (hb : Booted P q)
    (h : (q.tasks i).state ≠ .dead) : CreatedFresh P q i :=
  (hb.slot i).resolve_left fun he => h (by rw [he]; rfl)

theorem taskInv_initial {P : Platform} {s : Sys} (h : (kernel P).Initial s) : TaskInv s := by
  obtain ⟨q, best, hs⟩ := initial_started h
  obtain ⟨pmp, rfl⟩ := hs.state
  have hst : ∀ i, i ≠ best → (q.tasks i).state = .dead ∨ (q.tasks i).state = .ready := by
    intro i _
    rcases hs.booted.slot i with he | hf
    · exact Or.inl (by rw [he]; rfl)
    · exact Or.inr hf.ready
  refine ⟨hs.booted.count_le, fun i hd => ?_, by simp [Sys.current], fun i hr => ?_,
    fun i hu => ?_, fun i j _ _ ui _ => ?_⟩
  · by_cases hi : i = best
    · subst i
      have hf := booted_alive hs.booted (i := best) (by rw [hs.ready]; simp)
      exact ⟨hf.inTable, by simpa using hf.id_eq⟩
    · have hf := booted_alive hs.booted (i := i) (by simpa [hi] using hd)
      exact ⟨hf.inTable, by simpa [hi] using hf.id_eq⟩
  · by_contra hi
    rcases hst i hi with h | h <;> simp [hi, h] at hr
  · by_cases hi : i = best
    · subst i
      simp at hu
    · rcases hst i hi with h | h <;> simp [hi, h] at hu
  · by_cases hi : i = best
    · subst i
      simp at ui
    · rcases hst i hi with h | h <;> simp [hi, h] at ui

theorem reachable_taskInv {P : Platform} {guard : Sys → TrapEvent → Prop} {s : Sys}
    (h : Reachable (kernel P) guard s) : TaskInv s :=
  reachable_invariant (fun _ h0 => taskInv_initial h0)
    (fun _ _ _ _ hi _ hs => taskInv_trap hi hs) h

/-! ## Facts fixed at creation -/

/-- Every slot that holds a task satisfies the property. -/
def Configured (Q : TaskIndex → Task → Prop) (s : Sys) : Prop :=
  ∀ i, (s.tasks i).state ≠ .dead → Q i (s.tasks i)

section Configured

variable {P : Platform} {Q : TaskIndex → Task → Prop} (hQ : ∀ i t, Q i (config t) ↔ Q i t)
include hQ

theorem configured_congr {s u : Sys} (hcfg : ∀ i, config (u.tasks i) = config (s.tasks i))
    (hdead : ∀ i, (u.tasks i).state = .dead ↔ (s.tasks i).state = .dead) (h : Configured Q s) :
    Configured Q u := by
  intro i hd
  rw [Ne, hdead] at hd
  rw [← hQ, hcfg, hQ]
  exact h i hd

theorem configured_select {q w : Sys} {flow : Flow} (h : Configured Q q)
    (hselect : doPrioritySelectAndSwitch P q q.currentTask = .ok (w, flow)) : Configured Q w := by
  rcases select_cases hselect with ⟨-, rfl, -⟩ | ⟨next, ht, hs⟩
  · exact h
  · obtain ⟨-, hsel, -⟩ := switchTarget_some ht
    obtain ⟨pmp, rfl⟩ := hs.state
    exact configured_congr hQ (handOver_config q.tasks q.currentTask next)
      (handOver_dead q.currentTask (selectable_alive (selectNext_some hsel).1)) h

theorem configured_serves {u w : Sys} {mtime mcause syscallId arg0 arg1 arg2 : ℕ} {r : Option ℕ}
    (hi : TaskInv u) (h : Configured Q u)
    (hserves : Serves P u mtime mcause syscallId arg0 arg1 arg2 w r) : Configured Q w := by
  rcases serves_cases hi.currentAlive hserves with ⟨he, -, -⟩ | ⟨q, flow, hq, hw, -⟩
  · exact configured_congr hQ he.config he.dead h
  · have he := atSelection_evolves hi.currentAlive hq
    rw [← he.currentTask] at hw
    exact configured_select hQ (configured_congr hQ he.config he.dead h) hw

theorem configured_trap {s v : Sys} {e : TrapEvent} (hi : TaskInv s) (h : Configured Q s)
    (htrap : trap P s e = .ok v) : Configured Q v := by
  obtain ⟨u, args, w, r, ⟨hu, hserves⟩, rfl⟩ := trap_ok htrap
  have hin := entered_sameKernel hu
  have hout := leaveHandler_sameKernel P w r
  have hentered : Configured Q u := by
    rw [Configured]
    rw [hin.tasks]
    exact h
  rw [Configured]
  rw [hout.tasks]
  exact configured_serves hQ (taskInv_sameKernel hin hi) hentered hserves

theorem configured_initial (hboot : ∀ q i, CreatedFresh P q i → Q i (q.tasks i)) {s : Sys}
    (h : (kernel P).Initial s) : Configured Q s := by
  obtain ⟨q, best, hs⟩ := initial_started h
  obtain ⟨pmp, rfl⟩ := hs.state
  have hbooted : Configured Q q := fun i hd => hboot q i (booted_alive hs.booted hd)
  apply configured_congr hQ ?_ ?_ hbooted
  · intro i
    by_cases hi : i = best
    · subst i
      simp [config]
    · simp [hi]
  · intro i
    by_cases hi : i = best
    · subst i
      simp [hs.ready]
    · simp [hi]

/-- What every create function sets up, and nothing later writes, holds in every state. -/
theorem configured_reachable (hboot : ∀ q i, CreatedFresh P q i → Q i (q.tasks i))
    {guard : Sys → TrapEvent → Prop} {s : Sys} (h : Reachable (kernel P) guard s) :
    Configured Q s :=
  reachable_invariant (fun _ h0 => configured_initial hQ hboot h0)
    (fun _ _ _ hr hs _ hst => configured_trap hQ (reachable_taskInv hr) hs hst) h

end Configured

/-! ## Priority scheduling -/

structure PrioritySchedule (s : Sys) : Prop where
  oneRunning : ∀ i j, (s.tasks i).state = .running → (s.tasks j).state = .running → i = j
  runningIsCurrent : ∀ i, (s.tasks i).state = .running → i = s.currentTask
  current_lt : s.currentTask.val < s.taskCount
  noReadyAbove : ∀ i, i.val < s.taskCount → (s.tasks i).state = .ready →
    s.current.priority ≤ (s.tasks i).priority

def PrioritiesBelowMax (s : Sys) : Prop := ∀ i, s.Created i → (s.tasks i).priority < u8Max

def NoReadyAbove (s : Sys) : Prop :=
  ∀ i, i.val < s.taskCount → (s.tasks i).state = .ready → s.current.priority ≤ (s.tasks i).priority

theorem noReadyAbove_evolves {s u : Sys} (he : Evolves s u) (hn : NoWake s u)
    (h : NoReadyAbove s) : NoReadyAbove u := by
  intro i hi hr
  rw [Sys.current]
  rw [he.currentTask, config_priority (he.config _), config_priority (he.config i)]
  exact h i (he.taskCount ▸ hi) (hn i hr)

theorem selectable_of_ready {s : Sys} {i : TaskIndex} (hi : i.val < s.taskCount)
    (h : (s.tasks i).state = .ready) : Selectable s i :=
  ⟨hi, isSelectable_iff.mpr (Or.inl h)⟩

theorem selectable_of_running {s : Sys} {i : TaskIndex} (hi : i.val < s.taskCount)
    (h : (s.tasks i).state = .running) : Selectable s i :=
  ⟨hi, isSelectable_iff.mpr (Or.inr h)⟩

/-- The selection restores the order whatever the phases before it woke. -/
theorem noReadyAbove_select {P : Platform} {q w : Sys} {flow : Flow} (hi : TaskInv q)
    (hp : PrioritiesBelowMax q)
    (h : doPrioritySelectAndSwitch P q q.currentTask = .ok (w, flow)) : NoReadyAbove w := by
  rcases select_cases h with ⟨ht, rfl, -⟩ | ⟨next, ht, hs⟩
  · intro i hic hr
    rcases switchTarget_none ht with hc | hn | ⟨hold, -⟩
    · -- a single task: the only index is the current one
      have hcur := current_inTable hi
      have : i = w.currentTask := Fin.ext (by omega)
      rw [this]
      exact le_rfl
    · have hle := selectNext_none hn i (selectable_of_ready hic hr)
      have hlt := hp i ⟨hic, by simp [hr]⟩
      omega
    · exact (selectNext_some hold).2 i (selectable_of_ready hic hr)
  · obtain ⟨-, hsel, -⟩ := switchTarget_some ht
    obtain ⟨-, hmin⟩ := selectNext_some hsel
    obtain ⟨pmp, rfl⟩ := hs.state
    intro i hic hr
    have hcfg := handOver_config q.tasks q.currentTask next
    have hne : i ≠ next := by
      intro hin
      subst i
      simp [handOver_next] at hr
    change (handOver q.tasks q.currentTask next next).priority ≤ _
    rw [config_priority (hcfg next), config_priority (hcfg i)]
    rcases handOver_state q.tasks q.currentTask hne with he | ⟨hrun, -⟩
    · exact hmin i (selectable_of_ready hic (he ▸ hr))
    · exact hmin i (selectable_of_running hic hrun)

theorem created_evolves {s u : Sys} (he : Evolves s u) (i : TaskIndex) :
    u.Created i ↔ s.Created i := by
  simp only [Sys.Created]
  rw [he.taskCount, Ne, he.dead]

theorem prioritiesBelowMax_evolves {s u : Sys} (he : Evolves s u) :
    PrioritiesBelowMax u ↔ PrioritiesBelowMax s := by
  simp only [PrioritiesBelowMax]
  simp only [created_evolves he, config_priority (he.config _)]

theorem prioritiesBelowMax_select {P : Platform} {q w : Sys} {flow : Flow}
    (h : doPrioritySelectAndSwitch P q q.currentTask = .ok (w, flow)) (hp : PrioritiesBelowMax w) :
    PrioritiesBelowMax q := by
  rcases select_cases h with ⟨-, rfl, -⟩ | ⟨next, ht, hs⟩
  · exact hp
  · obtain ⟨-, hsel, -⟩ := switchTarget_some ht
    obtain ⟨pmp, rfl⟩ := hs.state
    intro i hc
    have hd := handOver_dead q.currentTask (selectable_alive (selectNext_some hsel).1) i
    rw [← config_priority (handOver_config q.tasks q.currentTask next i)]
    exact hp i ⟨hc.1, fun h => hc.2 (hd.mp h)⟩

theorem noReadyAbove_serves {P : Platform} {u w : Sys}
    {mtime mcause syscallId arg0 arg1 arg2 : ℕ} {r : Option ℕ} (hi : TaskInv u)
    (hu : PrioritiesBelowMax u → NoReadyAbove u)
    (h : Serves P u mtime mcause syscallId arg0 arg1 arg2 w r) (hp : PrioritiesBelowMax w) :
    NoReadyAbove w := by
  rcases serves_cases hi.currentAlive h with ⟨he, hn, -⟩ | ⟨q, flow, hq, hw, -⟩
  · exact noReadyAbove_evolves he hn (hu ((prioritiesBelowMax_evolves he).mp hp))
  · have he := atSelection_evolves hi.currentAlive hq
    rw [← he.currentTask] at hw
    exact noReadyAbove_select (taskInv_evolves he hi) (prioritiesBelowMax_select hw hp) hw

theorem noReadyAbove_trap {P : Platform} {s v : Sys} {e : TrapEvent} (hi : TaskInv s)
    (hs : PrioritiesBelowMax s → NoReadyAbove s) (h : trap P s e = .ok v)
    (hp : PrioritiesBelowMax v) : NoReadyAbove v := by
  obtain ⟨u, args, w, r, ⟨hu, hserves⟩, rfl⟩ := trap_ok h
  have hin := entered_sameKernel hu
  have hout := leaveHandler_sameKernel P w r
  have transfer : ∀ {a b : Sys}, SameKernel a b → (PrioritiesBelowMax b ↔ PrioritiesBelowMax a) ∧
      (NoReadyAbove b ↔ NoReadyAbove a) := by
    intro a b hab
    simp only [PrioritiesBelowMax, NoReadyAbove, Sys.Created, Sys.current]
    rw [hab.tasks, hab.taskCount, hab.currentTask]
    exact ⟨Iff.rfl, Iff.rfl⟩
  refine (transfer hout).2.mpr (noReadyAbove_serves (taskInv_sameKernel hin hi) ?_ hserves
    ((transfer hout).1.mp hp))
  exact fun hpu => (transfer hin).2.mpr (hs ((transfer hin).1.mp hpu))

theorem noReadyAbove_initial {P : Platform} {s : Sys} (h : (kernel P).Initial s) :
    NoReadyAbove s := by
  obtain ⟨q, best, hs⟩ := initial_started h
  obtain ⟨pmp, rfl⟩ := hs.state
  intro i hi hr
  by_cases hb : i = best
  · subst i
    exact le_rfl
  · simp only [hb, ne_eq, not_false_eq_true, Function.update_of_ne] at hr
    simpa [Sys.current, hb] using hs.least i hi hr

theorem priority_scheduling_invariant {P : Platform} {s : Sys}
    (h : Reachable (kernel P) anyStep s)
    (hp : ∀ i, s.Created i → (s.tasks i).priority < 255) : PrioritySchedule s := by
  have hi := reachable_taskInv h
  have hno : PrioritiesBelowMax s → NoReadyAbove s :=
    reachable_invariant (I := fun s => PrioritiesBelowMax s → NoReadyAbove s)
      (fun _ h0 _ => noReadyAbove_initial h0)
      (fun _ _ _ hr hs _ hst => noReadyAbove_trap (reachable_taskInv hr) hs hst) h
  exact ⟨fun i j ri rj => (hi.running i ri).trans (hi.running j rj).symm, hi.running,
    current_inTable hi, hno hp⟩

theorem priority_scheduling_at_boot : ∃ s, Reachable (kernel referencePlatform) anyStep s ∧
    (∀ i, s.Created i → (s.tasks i).priority < 255) ∧ PrioritySchedule s := by
  obtain ⟨s, hs, ht⟩ := endsWith_iff.mp (show endsWith (scenario bootInit [])
    (fun s => decide (∀ i, s.Created i → (s.tasks i).priority < 255)) = true by decide +kernel)
  have hp := of_decide_eq_true ht
  exact ⟨s, scenario_reachable hs, hp, priority_scheduling_invariant (scenario_reachable hs) hp⟩

/-! ## Isolation -/

def IsolationKept (s u : Sys) : Prop :=
  ∀ i, (s.tasks i).state = .isolated → (u.tasks i).state = .isolated

theorem isolationKept_serves {P : Platform} {u w : Sys}
    {mtime mcause syscallId arg0 arg1 arg2 : ℕ} {r : Option ℕ} (hi : TaskInv u)
    (h : Serves P u mtime mcause syscallId arg0 arg1 arg2 w r) : IsolationKept u w := by
  intro i hiso
  rcases serves_cases hi.currentAlive h with ⟨he, -, -⟩ | ⟨q, flow, hq, hw, -⟩
  · exact he.isolated i hiso
  · have hqi := (atSelection_evolves hi.currentAlive hq).isolated i hiso
    rcases select_cases hw with ⟨-, rfl, -⟩ | ⟨next, ht, hs⟩
    · exact hqi
    · obtain ⟨-, hsel, -⟩ := switchTarget_some ht
      obtain ⟨pmp, rfl⟩ := hs.state
      exact (handOver_isolated _ (selectable_not_isolated (selectNext_some hsel).1) i).mpr hqi

theorem isolationKept_trap {P : Platform} {s v : Sys} {e : TrapEvent} (hi : TaskInv s)
    (h : trap P s e = .ok v) : IsolationKept s v := by
  obtain ⟨u, args, w, r, ⟨hu, hs⟩, rfl⟩ := trap_ok h
  have hin := entered_sameKernel hu
  have hout := leaveHandler_sameKernel P w r
  intro i hiso
  rw [hout.tasks]
  exact isolationKept_serves (taskInv_sameKernel hin hi) hs i (by rwa [hin.tasks])

theorem isolationKept_execution {P : Platform} {s u : Sys} (h : Reachable (kernel P) anyStep s)
    (hx : Execution (kernel P) anyStep s u) : IsolationKept s u :=
  execution_relates (R := IsolationKept) (fun _ _ h => h) (fun _ _ _ a b i h => b i (a i h))
    (fun _ _ _ hr _ hs => isolationKept_trap (reachable_taskInv hr) hs) h hx

theorem isolated_not_selected {P : Platform} {s q : Sys} {e : TrapEvent} {i : TaskIndex}
    (hi : TaskInv s) (hiso : (s.tasks i).state = .isolated) (h : SelectsAt P s e q) :
    selectHighestPriority (stateSnapshot q) (prioritySnapshot q) q.taskCount ≠ some i.val := by
  obtain ⟨u, args, hu, hq⟩ := h
  have hin := entered_sameKernel hu
  have hui := taskInv_sameKernel hin hi
  have hqi := (atSelection_evolves hui.currentAlive hq).isolated i (by rwa [hin.tasks])
  intro hsel
  have hnext : selectNext q = some i := by simp [selectNext, hsel]
  exact selectable_not_isolated (selectNext_some hnext).1 hqi

theorem second_isolation_shuts_down {s : Sys} {i j : TaskIndex} (hne : j ≠ i)
    (hi : i.val < s.taskCount) (hj : j.val < s.taskCount)
    (hiso : (s.tasks i).state = .isolated) : isolateTask s j = .error .shutdown := by
  have hcount : 2 ≤ isolatedCount (markIsolated s j) := by
    by_contra hlt
    have hfew := isolatedCount_lt_two (show isolatedCount (markIsolated s j) < 2 by omega)
    refine hne (hfew j i ?_ ?_ ?_ ?_)
    all_goals simp [markIsolated, hj, hi, hiso, hne.symm]
  simp [isolateTask, hcount, consultPolicy, applySystemAction, PolicyEvent.code, decideAction]

theorem isolation_permanent_and_bounded {P : Platform} {s : Sys}
    (h : Reachable (kernel P) anyStep s) : AtMostOneIsolated s ∧
    ∀ i, i.val < s.taskCount → (s.tasks i).state = .isolated →
      (∀ u, Execution (kernel P) anyStep s u →
        (u.tasks i).state = .isolated ∧ ¬ u.broker.cache.Owns i.val ∧
        ∀ e q, SelectsAt P u e q →
          selectHighestPriority (stateSnapshot q) (prioritySnapshot q) q.taskCount ≠ some i.val) ∧
      ∀ j, j ≠ i → j.val < s.taskCount → isolateTask s j = .error .shutdown := by
  refine ⟨(reachable_taskInv h).few, fun i hi hiso => ⟨fun u hx => ?_, fun j hne hj => ?_⟩⟩
  · have hinv := reachable_taskInv (h.after hx)
    have hu := isolationKept_execution h hx i hiso
    have hid := (hinv.created i (by simp [hu])).2
    refine ⟨hu, ?_, fun e q hq => isolated_not_selected hinv hu hq⟩
    rw [← hid]
    exact hinv.purged i hu
  · exact second_isolation_shuts_down hne hi hj hiso

theorem isolation_after_exit : ∃ s, Reachable (kernel referencePlatform) anyStep s ∧
    (s.tasks 0).state = .isolated ∧ AtMostOneIsolated s ∧ ¬ s.broker.cache.Owns 0 := by
  obtain ⟨s, hs, ht⟩ := endsWith_iff.mp (show endsWith
    (scenario bootInit [ecallAt 0x80001000 (syscallRegs 5 0 0 0)])
    (fun s => decide ((s.tasks 0).state = .isolated ∧ 0 < s.taskCount)) = true by decide +kernel)
  obtain ⟨hiso, hcount⟩ := of_decide_eq_true ht
  have h := isolation_permanent_and_bounded (scenario_reachable hs)
  exact ⟨s, scenario_reachable hs, hiso, h.1, ((h.2 0 hcount hiso).1 s (.refl s)).2.1⟩

end KernelTaskInvariants
