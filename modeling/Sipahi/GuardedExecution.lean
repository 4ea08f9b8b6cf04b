import Mathlib.Data.List.Basic
import Mathlib.Logic.Relation

/-!
# Guarded executions of a halting machine

A deterministic machine is driven by events; a step yields the next state or halts.
Executions carry a guard on each taken step, so that a run property can be stated under
a condition on the state and event of every step. A loop whose body
may halt is a run over its index list.
-/
namespace GuardedExecution

universe u

variable {σ ε η : Type*} {α β : Type u}

structure Machine (σ ε η : Type*) where
  Initial : σ → Prop
  step : σ → ε → Except η σ

inductive Execution (M : Machine σ ε η) (guard : σ → ε → Prop) : σ → σ → Prop where
  | refl (s) : Execution M guard s s
  | tail {s u v e} : Execution M guard s u → guard u e → M.step u e = .ok v →
      Execution M guard s v

/-- The guard that admits every step. -/
def anyStep : σ → ε → Prop := fun _ _ => True

def Reachable (M : Machine σ ε η) (guard : σ → ε → Prop) (s : σ) : Prop :=
  ∃ s₀, M.Initial s₀ ∧ Execution M guard s₀ s

variable {M : Machine σ ε η} {guard : σ → ε → Prop}

theorem Execution.trans {s u v : σ} (h : Execution M guard s u) (k : Execution M guard u v) :
    Execution M guard s v := by
  induction k with
  | refl => exact h
  | tail _ hg hs ih => exact .tail ih hg hs

/-- An execution under a guard is one under any weaker guard. -/
theorem Execution.weaken {guard' : σ → ε → Prop} (hg : ∀ s e, guard s e → guard' s e) {s u : σ}
    (h : Execution M guard s u) : Execution M guard' s u := by
  induction h with
  | refl => exact .refl s
  | tail _ hstep hs ih => exact .tail ih (hg _ _ hstep) hs

theorem Reachable.weaken {guard' : σ → ε → Prop} (hg : ∀ s e, guard s e → guard' s e) {s : σ}
    (h : Reachable M guard s) : Reachable M guard' s := by
  obtain ⟨s₀, h0, hx⟩ := h
  exact ⟨s₀, h0, hx.weaken hg⟩

theorem Reachable.after {s u : σ} (h : Reachable M guard s) (k : Execution M guard s u) :
    Reachable M guard u := by
  obtain ⟨s₀, h0, hx⟩ := h
  exact ⟨s₀, h0, hx.trans k⟩

theorem Reachable.initial {s : σ} (h : M.Initial s) : Reachable M guard s :=
  ⟨s, h, .refl _⟩

theorem Reachable.next {s u : σ} {e : ε} (h : Reachable M guard s) (hg : guard s e)
    (hs : M.step s e = .ok u) : Reachable M guard u := by
  obtain ⟨s₀, h0, hx⟩ := h
  exact ⟨s₀, h0, .tail hx hg hs⟩

/-- A step lemma that may use reachability of the state it starts from. -/
theorem reachable_invariant {I : σ → Prop} (h0 : ∀ s, M.Initial s → I s)
    (hs : ∀ s e u, Reachable M guard s → I s → guard s e → M.step s e = .ok u → I u)
    {s : σ} (h : Reachable M guard s) : I s := by
  obtain ⟨s₀, hi, hx⟩ := h
  induction hx with
  | refl => exact h0 _ hi
  | @tail u v e hx hg hst ih => exact hs u e v ⟨s₀, hi, hx⟩ ih hg hst

/-- A reflexive and transitive relation kept by every reachable step relates the ends of
every execution that starts in a reachable state. -/
theorem execution_relates {R : σ → σ → Prop} (hr : ∀ s, R s s)
    (ht : ∀ s u v, R s u → R u v → R s v)
    (hs : ∀ s e u, Reachable M guard s → guard s e → M.step s e = .ok u → R s u)
    {s u : σ} (h : Reachable M guard s) (k : Execution M guard s u) : R s u := by
  induction k with
  | refl => exact hr _
  | @tail u v e hx hg hst ih => exact ht _ _ _ ih (hs u e v (h.after hx) hg hst)

/-- Run a list of events, stopping at the first halt. -/
def run (M : Machine σ ε η) (s : σ) (es : List ε) : Except η σ := es.foldlM M.step s

/-- Every step of the run satisfies the guard. -/
def GuardedRun (M : Machine σ ε η) (guard : σ → ε → Prop) : σ → List ε → Prop
  | _, [] => True
  | s, e :: es => guard s e ∧ ∀ u, M.step s e = .ok u → GuardedRun M guard u es

theorem bind_eq_ok {x : Except η α} {f : α → Except η β} {b : β} :
    (x >>= f) = .ok b ↔ ∃ a, x = .ok a ∧ f a = .ok b := by
  cases x with
  | error e => simp [bind, Except.bind]
  | ok a => simp [bind, Except.bind]

theorem bind_eq_error {x : Except η α} {f : α → Except η β} {e : η} :
    (x >>= f) = .error e ↔ x = .error e ∨ ∃ a, x = .ok a ∧ f a = .error e := by
  cases x with
  | error e => simp [bind, Except.bind]
  | ok a => simp [bind, Except.bind]

theorem run_cons_ok {s v : σ} {e : ε} {es : List ε} :
    run M s (e :: es) = .ok v ↔ ∃ u, M.step s e = .ok u ∧ run M u es = .ok v := by
  simp only [run, List.foldlM_cons]
  exact bind_eq_ok

theorem run_append_ok {s v : σ} {es fs : List ε} :
    run M s (es ++ fs) = .ok v ↔ ∃ u, run M s es = .ok u ∧ run M u fs = .ok v := by
  simp only [run, List.foldlM_append]
  exact bind_eq_ok

theorem run_singleton {s : σ} {e : ε} : run M s [e] = M.step s e := by
  simp [run]

theorem run_execution {s v : σ} {es : List ε} (hg : GuardedRun M guard s es)
    (h : run M s es = .ok v) : Execution M guard s v := by
  induction es generalizing s with
  | nil => cases h; exact .refl _
  | cons e es ih =>
    obtain ⟨u, hu, hv⟩ := run_cons_ok.mp h
    exact (Execution.tail (.refl _) hg.1 hu).trans (ih (hg.2 u hu) hv)

/-- Invariant rule for a run under a guard. -/
theorem run_invariant {I : σ → Prop} (hs : ∀ s e u, I s → guard s e → M.step s e = .ok u → I u)
    {s v : σ} {es : List ε} (hi : I s) (hg : GuardedRun M guard s es) (h : run M s es = .ok v) :
    I v := by
  induction es generalizing s with
  | nil => cases h; exact hi
  | cons e es ih =>
    obtain ⟨u, hu, hv⟩ := run_cons_ok.mp h
    exact ih (hs s e u hi hg.1 hu) (hg.2 u hu) hv

/-- A guard that holds wherever a prefix of the events leads holds throughout the run. -/
theorem guardedRun_of_reached {s : σ} {es : List ε}
    (h : ∀ before e after u, es = before ++ e :: after → run M s before = .ok u → guard u e) :
    GuardedRun M guard s es := by
  induction es generalizing s with
  | nil => trivial
  | cons e es ih =>
    refine ⟨h [] e es s rfl rfl, fun u hu => ih fun before e' after v heq hv => ?_⟩
    exact h (e :: before) e' after v (by simp [heq]) (run_cons_ok.mpr ⟨u, hu, hv⟩)

theorem guardedRun_anyStep (s : σ) (es : List ε) : GuardedRun M anyStep s es := by
  induction es generalizing s with
  | nil => trivial
  | cons e es ih => exact ⟨trivial, fun u _ => ih u⟩

theorem run_anyStep {s v : σ} {es : List ε} (h : run M s es = .ok v) : Execution M anyStep s v :=
  run_execution (guardedRun_anyStep s es) h

/-- Invariant rule for a run without a guard. -/
theorem run_keeps {I : σ → Prop} (hs : ∀ s e u, I s → M.step s e = .ok u → I u)
    {s v : σ} {es : List ε} (hi : I s) (h : run M s es = .ok v) : I v := by
  apply run_invariant (I := I) _ hi (guardedRun_anyStep s es) h
  intro q e u hq _ hu
  exact hs q e u hq hu

/-- A machine whose steps do not halt finishes every run. -/
theorem run_total (hs : ∀ s e, ∃ u, M.step s e = .ok u) (s : σ) (es : List ε) :
    ∃ v, run M s es = .ok v := by
  induction es generalizing s with
  | nil => exact ⟨s, rfl⟩
  | cons e es ih =>
    obtain ⟨u, hu⟩ := hs s e
    obtain ⟨v, hv⟩ := ih u
    exact ⟨v, run_cons_ok.mpr ⟨u, hu, hv⟩⟩

/-- Evaluate a check at every step of a run. -/
def checkedRun (M : Machine σ ε η) (check : σ → ε → Bool) : σ → List ε → Bool
  | _, [] => true
  | s, e :: es => check s e &&
    match M.step s e with
    | .ok u => checkedRun M check u es
    | .error _ => true

theorem guardedRun_of_checkedRun {check : σ → ε → Bool}
    (hc : ∀ s e, check s e = true → guard s e) {s : σ} {es : List ε}
    (h : checkedRun M check s es = true) : GuardedRun M guard s es := by
  induction es generalizing s with
  | nil => trivial
  | cons e es ih =>
    simp only [checkedRun, Bool.and_eq_true] at h
    refine ⟨hc s e h.1, fun u hu => ih ?_⟩
    simpa [hu] using h.2

end GuardedExecution
