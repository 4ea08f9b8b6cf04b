import Sipahi.KernelReference
import Mathlib.Data.List.FinRange

/-!
# The two task selectors

`select_highest_priority` and the loop of `start_first_task` run the same scan; the one answers
with an option, the other with an index and a priority of 255 where nothing was found.
-/
namespace KernelSelectors

open KernelTypes KernelState KernelScheduler KernelTrap KernelReference FirstMinimum GuardedExecution

/-- The task at this index may be picked. -/
def SelectableAt (states : List TaskState) (k : ℕ) : Prop :=
  states[k]? = some .ready ∨ states[k]? = some .running

/-- The indices that the loop visits. -/
def Visited (states : List TaskState) (priorities : List ℕ) (count k : ℕ) : Prop :=
  k < min count (min states.length priorities.length)

/-- The least index among the selectable ones of minimal priority. -/
structure IsSelected (states : List TaskState) (priorities : List ℕ) (count i : ℕ) : Prop where
  visited : Visited states priorities count i
  selectable : SelectableAt states i
  minimal : ∀ k, Visited states priorities count k → SelectableAt states k →
    priorities.getD i u8Max ≤ priorities.getD k u8Max
  leftmost : ∀ k, k < i → SelectableAt states k →
    priorities.getD i u8Max < priorities.getD k u8Max

section

variable {states : List TaskState} {priorities : List ℕ} {count : ℕ}

theorem selectable_getD {k : ℕ} (hk : k < states.length) :
    isSelectableByScheduler (states.getD k .dead) = true ↔ SelectableAt states k := by
  rw [isSelectable_iff, SelectableAt]
  simp [List.getD, hk]

theorem mem_visited {k : ℕ} :
    k ∈ List.range (min count (min states.length priorities.length)) ↔
      Visited states priorities count k := by
  rw [List.mem_range, Visited]

theorem visited_states {k : ℕ} (h : Visited states priorities count k) : k < states.length := by
  rw [Visited] at h
  omega

theorem visited_priorities {k : ℕ} (h : Visited states priorities count k) :
    k < priorities.length := by
  rw [Visited] at h
  omega

theorem selectHighestPriority_selected {i : ℕ}
    (h : selectHighestPriority states priorities count = some i) :
    IsSelected states priorities count i := by
  rw [selectHighestPriority] at h
  obtain ⟨hmem, hel, hmin⟩ := scan_some h
  have hvisited := mem_visited.mp hmem
  refine ⟨hvisited, (selectable_getD (visited_states hvisited)).mp hel, ?_, ?_⟩
  · intro k hk hs
    exact hmin k (mem_visited.mpr hk) ((selectable_getD (visited_states hk)).mpr hs)
  · intro k hk hs
    obtain ⟨before, after, hsplit, hleft⟩ := scan_leftmost h
    have hrange : k ∈ List.range (min count (min states.length priorities.length)) :=
      List.mem_range.mpr (hk.trans (List.mem_range.mp hmem))
    have hvk := visited_states (mem_visited.mp hrange)
    refine hleft k ?_ ((selectable_getD hvk).mpr hs)
    -- the visited indices are in increasing order, so a smaller one stands in front
    have hsorted : (before ++ i :: after).Pairwise (· < ·) := by
      rw [← hsplit]
      exact List.pairwise_lt_range
    rw [hsplit] at hrange
    rcases List.mem_append.mp hrange with hb | hb
    · exact hb
    · rcases List.mem_cons.mp hb with rfl | ha
      · omega
      · have := (List.pairwise_cons.mp (List.pairwise_append.mp hsorted).2.1).1 k ha
        omega

theorem selectHighestPriority_exists_iff (hp : ∀ p ∈ priorities, p < u8Max) :
    (∃ i, selectHighestPriority states priorities count = some i) ↔
      ∃ k, Visited states priorities count k ∧ SelectableAt states k := by
  rw [selectHighestPriority, scan_exists_iff]
  · constructor
    · rintro ⟨k, hk, hs⟩
      have hv := mem_visited.mp hk
      exact ⟨k, hv, (selectable_getD (visited_states hv)).mp hs⟩
    · rintro ⟨k, hv, hs⟩
      exact ⟨k, mem_visited.mpr hv, (selectable_getD (visited_states hv)).mpr hs⟩
  · intro k hk _
    have hlt := visited_priorities (mem_visited.mp hk)
    have hget : priorities.getD k u8Max = priorities[k] := by
      simp [List.getD, hlt]
    rw [hget]
    exact hp _ (List.getElem_mem hlt)

end

/-! ## The loop of `start_first_task` -/

/-- `best` and `best_prio` after the loop. -/
def firstTaskLoop (s : Sys) : TaskIndex × ℕ :=
  sentinelScan (fun i => (s.tasks i).state == .ready) (fun i => (s.tasks i).priority) 0 u8Max
    ((List.finRange maxTasks).filter fun i => i.val < s.taskCount)

/-- A priority of 255 after the loop means that there is no `Ready` task. -/
def firstTask (s : Sys) : Option TaskIndex :=
  if (firstTaskLoop s).2 = u8Max then none else some (firstTaskLoop s).1

def tableStates (s : Sys) : List TaskState := List.ofFn fun i => (s.tasks i).state

def tablePriorities (s : Sys) : List ℕ := List.ofFn fun i => (s.tasks i).priority

theorem firstTask_eq_bestReady (s : Sys) : firstTask s = bestReady s := by
  rw [firstTask, firstTaskLoop, sentinelScan_eq, scan_filter, bestReady]

theorem range_min (count n : ℕ) :
    List.range (min count n) = (List.range n).filter fun k => decide (k < count) := by
  induction n with
  | zero => simp
  | succ n ih =>
    rw [List.range_succ, List.filter_append, ← ih]
    by_cases hn : n < count
    · have hmin : min count (n + 1) = n + 1 := by omega
      have hprev : min count n = n := by omega
      rw [hmin, hprev, List.range_succ]
      simp [hn]
    · have hmin : min count (n + 1) = count := by omega
      have hprev : min count n = count := by omega
      rw [hmin, hprev]
      simp [hn]

/-- On a table, `select_highest_priority` is a scan of the task indices. -/
theorem selectHighestPriority_table (s : Sys) :
    selectHighestPriority (tableStates s) (tablePriorities s) s.taskCount =
      (scan (fun i : TaskIndex => decide (i.val < s.taskCount) &&
        isSelectableByScheduler (s.tasks i).state) (fun i => (s.tasks i).priority) u8Max
        (List.finRange maxTasks)).1.map Fin.val := by
  have hlen : min (tableStates s).length (tablePriorities s).length = maxTasks := by
    simp [tableStates, tablePriorities]
  have hstate : ∀ i : TaskIndex, (tableStates s).getD i.val .dead = (s.tasks i).state := by
    intro i
    simp [tableStates, List.getD]
  have hpriority : ∀ i : TaskIndex,
      (tablePriorities s).getD i.val u8Max = (s.tasks i).priority := by
    intro i
    simp [tablePriorities, List.getD]
  rw [selectHighestPriority, hlen, range_min, scan_filter, ← List.map_coe_finRange_eq_range,
    (scan_map Fin.val _).1]
  simp only [hstate, hpriority]

theorem firstTask_agrees {s : Sys} (h : ∀ i, i.val < s.taskCount → (s.tasks i).state ≠ .running) :
    (firstTask s).map Fin.val =
      selectHighestPriority (tableStates s) (tablePriorities s) s.taskCount := by
  rw [firstTask_eq_bestReady, selectHighestPriority_table, bestReady]
  congr 2
  refine scan_congr (fun i _ => ?_) fun _ _ => rfl
  by_cases hi : i.val < s.taskCount
  · have hnot : ((s.tasks i).state == .running) = false := by
      simpa using h i hi
    simp [isSelectableByScheduler, hnot]
  · simp [hi]

/-- The halt that reports the absence of a `Ready` task. -/
def noReadyTask : Halt := .haltSystem "[POLICY] SHUTDOWN — no Ready task at boot"

theorem startFirstTask_noReady_iff (P : Platform) {s : Sys} (hs : s.taskCount ≠ 0) :
    startFirstTask P s = .error noReadyTask ↔ firstTask s = none := by
  rw [firstTask_eq_bestReady, startFirstTask, if_neg hs]
  cases hb : bestReady s with
  | none => simp [noReadyTask]
  | some best =>
    simp only [reduceCtorEq, iff_false]
    rw [loadTaskPmp]
    split
    · split
      · split
        · simp [noReadyTask, bind, Except.bind]
        · simp [bind, Except.bind]
      · simp [noReadyTask, bind, Except.bind]
    · simp [bind, Except.bind]

/-- The selection for arbitrary slices, and the two selectors on a table without a running
task. -/
theorem selectors_correct_and_agree :
    (∀ (states : List TaskState) (priorities : List ℕ) (count : ℕ),
      (∀ p ∈ priorities, p < u8Max) →
        ((∃ i, selectHighestPriority states priorities count = some i) ↔
          ∃ k, Visited states priorities count k ∧ SelectableAt states k) ∧
        ∀ i, selectHighestPriority states priorities count = some i →
          IsSelected states priorities count i) ∧
    (∀ s : Sys, (∀ i, i.val < s.taskCount → (s.tasks i).state ≠ .running) →
      (firstTask s).map Fin.val =
          selectHighestPriority (tableStates s) (tablePriorities s) s.taskCount ∧
        ∀ P, s.taskCount ≠ 0 → (startFirstTask P s = .error noReadyTask ↔
          selectHighestPriority (tableStates s) (tablePriorities s) s.taskCount = none)) := by
  constructor
  · intro states priorities count hp
    constructor
    · exact selectHighestPriority_exists_iff hp
    · intro i h
      exact selectHighestPriority_selected h
  · intro s hs
    have hagree := firstTask_agrees hs
    refine ⟨hagree, ?_⟩
    intro P hcount
    rw [startFirstTask_noReady_iff P hcount, ← hagree, Option.map_eq_none_iff]

/-- Three slices, and the table after the first call of the reference boot. -/
theorem selectors_on_reference :
    IsSelected [.ready, .suspended, .ready] [5, 1, 3] 3 2 ∧
      ∃ s, run (bootSequence referencePlatform) (powerOn referencePlatform resetHart 0 fun _ => 0)
          [legacyTask 4 1 300000 10] = .ok s ∧
        (firstTask s).map Fin.val =
          selectHighestPriority (tableStates s) (tablePriorities s) s.taskCount ∧
        startFirstTask referencePlatform s ≠ .error noReadyTask := by
  obtain ⟨s, hs, ht⟩ := endsWith_iff.mp (show endsWith
    (run (bootSequence referencePlatform) (powerOn referencePlatform resetHart 0 fun _ => 0)
      [legacyTask 4 1 300000 10])
    (fun s => decide ((∀ i, i.val < s.taskCount → (s.tasks i).state ≠ .running) ∧
      s.taskCount ≠ 0 ∧
      selectHighestPriority (tableStates s) (tablePriorities s) s.taskCount ≠ none)) = true
    by decide +kernel)
  obtain ⟨hidle, hcount, hsome⟩ := of_decide_eq_true ht
  obtain ⟨hagree, hhalts⟩ := selectors_correct_and_agree.2 s hidle
  refine ⟨(selectors_correct_and_agree.1 _ _ 3 (by decide)).2 2 (by decide), s, hs, hagree, ?_⟩
  exact mt (hhalts referencePlatform hcount).mp hsome

end KernelSelectors
