import Sipahi.KernelBoot
import Sipahi.KernelReference
import Mathlib.Order.Interval.Set.Basic
import Mathlib.Order.CompletePartialOrder
import Mathlib.Data.Set.Lattice

/-!
# Task creation

`create_task` appends at `TASK_COUNT`, `native_create_task` fills the slot that its caller names.
A log of calls and answers runs along, so that later calls can be compared with earlier ones.
-/
namespace KernelCreation

open KernelTypes KernelState KernelTrapFrame KernelScheduler KernelEvolution KernelBoot
open KernelReference RiscvHart GuardedExecution

inductive CreateCall where
  | legacy (cfg : TaskConfig)
  | native (cfg : NativeTaskConfig)
  deriving DecidableEq

def create (P : Platform) (s : Sys) : CreateCall → Except Halt (Sys × Option TaskIndex)
  | .legacy cfg => .ok (createTask P s cfg)
  | .native cfg => nativeCreateTask P s cfg

/-- The calls made so far with what they returned. -/
abbrev CreateLog := List (CreateCall × Option TaskIndex)

/-- Any sequence of creations from the empty table. -/
def creation (P : Platform) : Machine (Sys × CreateLog) CreateCall Halt where
  Initial := fun q => (∀ i, q.1.tasks i = .empty) ∧ q.1.taskCount = 0 ∧ q.2 = []
  step := fun q c => do
    let (u, r) ← create P q.1 c
    .ok (u, q.2 ++ [(c, r)])

/-- Every field of the task, the saved context among them. -/
structure SameTask (s u : Sys) (i : TaskIndex) : Prop where
  task : u.tasks i = s.tasks i
  context : ∀ offset, u.hart.mem (.context i offset) = s.hart.mem (.context i offset)

/-- The stack of a legacy task. -/
def stackOf (t : Task) : Set ℕ := Set.Ico (t.stackTop - taskStackSize) t.stackTop

/-- The slot `i` was free and holds a new task; the other slots are as before. -/
structure Fills (P : Platform) (s : Sys) (c : CreateCall) (i : TaskIndex) (u : Sys) : Prop where
  free : i.val = s.taskCount ∨ (s.tasks i).state ≠ .ready
  others : ∀ j, j ≠ i → SameTask s u j
  ready : (u.tasks i).state = .ready
  id_eq : (u.tasks i).id = i.val
  count_eq : u.taskCount = max s.taskCount (i.val + 1)
  legacyStack : ∀ cfg, c = .legacy cfg →
    (u.tasks i).stackTop = P.taskStackBase i + taskStackSize

section

variable {P : Platform} {s u : Sys} {c : CreateCall} {r : Option TaskIndex}

theorem createTask_cases (cfg : TaskConfig) :
    createTask P s cfg = (s, none) ∨
      ∃ i u, createTask P s cfg = (u, some i) ∧ Fills P s (.legacy cfg) i u := by
  rw [createTask]
  split
  · rename_i hlt
    split
    · exact Or.inl rfl
    · refine Or.inr ⟨⟨s.taskCount, hlt⟩, _, rfl, ?_⟩
      refine ⟨Or.inl rfl, ?_, by simp, by simp, ?_, ?_⟩
      · intro j hj
        refine ⟨by simp [hj], ?_⟩
        intro offset
        exact (writeContext_kept ..).contexts j offset hj
      · dsimp only
        omega
      · intro _ _
        simpa using taskStack_top P ⟨s.taskCount, hlt⟩
  · exact Or.inl rfl

theorem nativeCreateTask_cases {cfg : NativeTaskConfig} {x : Sys × Option TaskIndex}
    (h : nativeCreateTask P s cfg = .ok x) :
    x = (s, none) ∨ ∃ i u, x = (u, some i) ∧ Fills P s (.native cfg) i u := by
  rw [nativeCreateTask] at h
  split at h
  · rename_i hlt
    split at h
    · cases h
      exact Or.inl rfl
    · dsimp only at h
      split at h
      · cases h
        exact Or.inl rfl
      · split at h
        · cases h
          exact Or.inl rfl
        · rename_i hidle
          split at h
          · cases h
          · cases h
            refine Or.inr ⟨⟨cfg.taskId, hlt⟩, _, rfl, ?_⟩
            refine ⟨Or.inr ?_, ?_, by simp, by simp, ?_, ?_⟩
            · intro hready
              exact hidle (Or.inl hready)
            · intro j hj
              refine ⟨by simp [hj], ?_⟩
              intro offset
              exact (writeContext_kept ..).contexts j offset hj
            · dsimp only
              split <;> omega
            · intro legacy hc
              cases hc
  · cases h
    exact Or.inl rfl

theorem create_cases (h : create P s c = .ok (u, r)) :
    (r = none ∧ u = s) ∨ ∃ i, r = some i ∧ Fills P s c i u := by
  cases c with
  | legacy cfg =>
    rcases createTask_cases (P := P) (s := s) cfg with hn | ⟨i, v, hv, hf⟩
    · rw [create, hn] at h
      cases h
      exact Or.inl ⟨rfl, rfl⟩
    · rw [create, hv] at h
      cases h
      exact Or.inr ⟨i, rfl, hf⟩
  | native cfg =>
    rcases nativeCreateTask_cases (show nativeCreateTask P s cfg = .ok (u, r) from h) with
      hn | ⟨i, v, hv, hf⟩
    · cases hn
      exact Or.inl ⟨rfl, rfl⟩
    · cases hv
      exact Or.inr ⟨i, rfl, hf⟩

end

/-! ## The table after any sequence of calls -/

structure Allocated (P : Platform) (q : Sys × CreateLog) : Prop where
  count_le : q.1.taskCount ≤ maxTasks
  live : ∀ i, (q.1.tasks i).state ≠ .dead → i.val < q.1.taskCount ∧ (q.1.tasks i).id = i.val
  created : ∀ c i, (c, some i) ∈ q.2 → (q.1.tasks i).state = .ready
  once : (q.2.filterMap Prod.snd).Nodup
  legacyStack : ∀ cfg i, (CreateCall.legacy cfg, some i) ∈ q.2 →
    (q.1.tasks i).stackTop = P.taskStackBase i + taskStackSize

section

variable {P : Platform} {q : Sys × CreateLog} {u : Sys} {c : CreateCall} {i : TaskIndex}

theorem allocated_initial (h : (creation P).Initial q) : Allocated P q := by
  obtain ⟨hempty, hcount, hlog⟩ := h
  refine ⟨by simp [hcount], ?_, ?_, by simp [hlog], ?_⟩
  · intro i hd
    rw [hempty i] at hd
    exact absurd rfl hd
  · simp [hlog]
  · simp [hlog]

/-- The slot that a call fills was not filled by an earlier one. -/
theorem fills_fresh (h : Allocated P q) (hf : Fills P q.1 c i u) {c' : CreateCall}
    {j : TaskIndex} (hj : (c', some j) ∈ q.2) : j ≠ i := by
  intro hji
  subst j
  have hready := h.created c' i hj
  rcases hf.free with hlast | hidle
  · have hin := (h.live i (by simp [hready])).1
    omega
  · exact hidle hready

theorem allocated_fills (h : Allocated P q) (hf : Fills P q.1 c i u) :
    Allocated P (u, q.2 ++ [(c, some i)]) := by
  have hi := i.isLt
  have hle := h.count_le
  have hcount := hf.count_eq
  constructor
  · dsimp only
    omega
  · intro j hd
    dsimp only at hd ⊢
    by_cases hj : j = i
    · subst j
      exact ⟨by omega, hf.id_eq⟩
    · rw [(hf.others j hj).task] at hd ⊢
      obtain ⟨hin, hid⟩ := h.live j hd
      exact ⟨by omega, hid⟩
  · intro c' j hj
    rcases List.mem_append.mp hj with hj | hj
    · rw [(hf.others j (fills_fresh h hf hj)).task]
      exact h.created c' j hj
    · cases List.mem_singleton.mp hj
      exact hf.ready
  · rw [List.filterMap_append]
    refine List.nodup_append.mpr ⟨h.once, by simp, ?_⟩
    intro j hj k hk
    obtain ⟨⟨c', r⟩, hmem, rfl⟩ := List.mem_filterMap.mp hj
    obtain rfl : k = i := by simpa using hk
    exact fills_fresh h hf hmem
  · intro cfg j hj
    rcases List.mem_append.mp hj with hj | hj
    · rw [(hf.others j (fills_fresh h hf hj)).task]
      exact h.legacyStack cfg j hj
    · cases List.mem_singleton.mp hj
      exact hf.legacyStack cfg rfl

theorem allocated_refused (h : Allocated P q) : Allocated P (q.1, q.2 ++ [(c, none)]) := by
  have hmem : ∀ {c' : CreateCall} {j : TaskIndex}, (c', some j) ∈ q.2 ++ [(c, none)] →
      (c', some j) ∈ q.2 := by
    intro c' j hj
    simpa using hj
  refine ⟨h.count_le, h.live, ?_, ?_, ?_⟩
  · intro c' j hj
    exact h.created c' j (hmem hj)
  · rw [List.filterMap_append]
    simpa using h.once
  · intro cfg j hj
    exact h.legacyStack cfg j (hmem hj)

theorem allocated_step {v : Sys × CreateLog} (h : Allocated P q)
    (hstep : (creation P).step q c = .ok v) : Allocated P v := by
  obtain ⟨⟨u, r⟩, hu, hv⟩ := bind_eq_ok.mp hstep
  cases hv
  rcases create_cases hu with ⟨rfl, rfl⟩ | ⟨i, rfl, hf⟩
  · exact allocated_refused h
  · exact allocated_fills h hf

theorem stackOf_eq (h : Allocated P q) {cfg : TaskConfig}
    (hi : (CreateCall.legacy cfg, some i) ∈ q.2) :
    stackOf (q.1.tasks i) =
      Set.Ico (P.taskStackBase i) (P.taskStackBase i + taskStackSize) := by
  rw [stackOf, h.legacyStack cfg i hi, Nat.add_sub_cancel]

theorem taskStacks_disjoint (P : Platform) {i j : TaskIndex} (h : i ≠ j) :
    Disjoint (Set.Ico (P.taskStackBase i) (P.taskStackBase i + taskStackSize))
      (Set.Ico (P.taskStackBase j) (P.taskStackBase j + taskStackSize)) := by
  rw [Set.disjoint_left]
  rintro a ⟨hi, hi'⟩ ⟨hj, hj'⟩
  have hne : i.val ≠ j.val := fun he => h (Fin.ext he)
  rw [P.taskStack_array i] at hi hi'
  rw [P.taskStack_array j] at hj hj'
  simp only [taskStackSize] at *
  omega

/-- Two entries of the log that created legacy tasks created different ones. -/
theorem legacy_disjoint (h : Allocated P q) :
    q.2.Pairwise fun x y => ∀ cfg cfg' i j, x = (.legacy cfg, some i) →
      y = (.legacy cfg', some j) → Disjoint (stackOf (q.1.tasks i)) (stackOf (q.1.tasks j)) := by
  have hdistinct : q.2.Pairwise fun x y => ∀ i j, x.2 = some i → y.2 = some j → i ≠ j := by
    have honce := List.pairwise_filterMap.mp h.once
    exact honce.imp fun hxy i j hx hy => hxy i hx j hy
  apply hdistinct.imp_of_mem
  rintro x y hx hy hxy cfg cfg' i j rfl rfl
  rw [stackOf_eq h hx, stackOf_eq h hy]
  exact taskStacks_disjoint P (hxy i j rfl rfl)

end

/-- Whatever calls were made, the table is well formed, the next call changes no task made before,
a refused call changes nothing, and the legacy stacks are disjoint. -/
theorem creation_never_clobbers {P : Platform} {q₀ q : Sys × CreateLog} {calls : List CreateCall}
    (h0 : (creation P).Initial q₀) (hrun : run (creation P) q₀ calls = .ok q) :
    q.1.taskCount ≤ maxTasks ∧
    (∀ i, (q.1.tasks i).state ≠ .dead → i.val < q.1.taskCount ∧ (q.1.tasks i).id = i.val) ∧
    (∀ c u r, create P q.1 c = .ok (u, r) →
      (∀ c' i, (c', some i) ∈ q.2 → SameTask q.1 u i) ∧ (r = none → u = q.1)) ∧
    (∀ cfg i, (CreateCall.legacy cfg, some i) ∈ q.2 → stackOf (q.1.tasks i) =
      Set.Ico (P.taskStackBase i) (P.taskStackBase i + taskStackSize)) ∧
    q.2.Pairwise fun x y => ∀ cfg cfg' i j, x = (.legacy cfg, some i) →
      y = (.legacy cfg', some j) →
      Disjoint (stackOf (q.1.tasks i)) (stackOf (q.1.tasks j)) := by
  have h : Allocated P q := by
    apply run_keeps (I := Allocated P) _ (allocated_initial h0) hrun
    intro x c v hx hv
    exact allocated_step hx hv
  refine ⟨h.count_le, h.live, ?_, ?_, legacy_disjoint h⟩
  · intro c u r hu
    rcases create_cases hu with ⟨rfl, rfl⟩ | ⟨i, rfl, hf⟩
    · exact ⟨fun _ _ _ => ⟨rfl, fun _ => rfl⟩, fun _ => rfl⟩
    · constructor
      · intro c' j hj
        exact hf.others j (fills_fresh h hf hj)
      · intro hr
        cases hr
  · intro cfg i hi
    exact stackOf_eq h hi

/-- A native task above a hole, a repeated identifier, the hole filled, and two legacy tasks. -/
def mixedCalls : List CreateCall :=
  let legacy := CreateCall.legacy ⟨0x80001000, 4, 1, 300000, 10, false⟩
  [legacy, .native ⟨3, 7, 3, 500000, 50⟩, .native ⟨3, 7, 3, 500000, 50⟩,
    .native ⟨2, 6, 3, 500000, 50⟩, legacy]

theorem creation_with_hole : ∃ q, run (creation referencePlatform)
      (Sys.cold resetHart 0 (fun _ => 0), []) mixedCalls = .ok q ∧
    q.2.map Prod.snd = [some 0, some 3, none, some 2, some 4] ∧ q.1.taskCount ≤ maxTasks ∧
    ∀ u r, create referencePlatform q.1 (.native ⟨3, 7, 3, 500000, 50⟩) = .ok (u, r) →
      r = none → u = q.1 := by
  obtain ⟨q, hq, ht⟩ := endsWith_iff.mp (show endsWith (run (creation referencePlatform)
      (Sys.cold resetHart 0 (fun _ => 0), []) mixedCalls)
    (fun q => decide (q.2.map Prod.snd = [some 0, some 3, none, some 2, some 4])) = true
    by decide +kernel)
  have h := creation_never_clobbers ⟨fun _ => rfl, rfl, rfl⟩ hq
  exact ⟨q, hq, of_decide_eq_true ht, h.1, fun u r hu => (h.2.2.1 _ u r hu).2⟩

end KernelCreation
