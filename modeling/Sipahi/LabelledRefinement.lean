import Mathlib.Data.List.Basic

/-!
# Refinement of labelled systems

A step either shows a label or is internal. A forward simulation that lets internal steps stutter
carries every run to a run of the abstract system with the same labels.
-/
namespace LabelledRefinement

variable {σ τ ε : Type*}

structure System (σ ε : Type*) where
  initial : σ
  step : σ → Option ε → σ → Prop

inductive Run (S : System σ ε) : List ε → σ → Prop where
  | start : Run S [] S.initial
  | internal {es s t} : Run S es s → S.step s none t → Run S es t
  | visible {es s t e} : Run S es s → S.step s (some e) t → Run S (es ++ [e]) t

/-- Every label of a run was shown by a step out of the state that the labels before it led to. -/
theorem Run.split {S : System σ ε} {es before after : List ε} {e : ε} {t : σ} (h : Run S es t)
    (hes : es = before ++ e :: after) : ∃ s s', Run S before s ∧ S.step s (some e) s' := by
  induction h generalizing after with
  | start => simp at hes
  | internal _ _ ih => exact ih hes
  | @visible fs s t f hs hst ih =>
    rcases List.eq_nil_or_concat after with rfl | ⟨rest, last, rfl⟩
    · obtain ⟨rfl, hf⟩ := List.append_inj' hes rfl
      cases hf
      exact ⟨s, t, hs, hst⟩
    · rw [List.concat_eq_append, ← List.cons_append, ← List.append_assoc] at hes
      exact ih (List.append_inj' hes rfl).1

structure Simulation (S : System σ ε) (T : System τ ε) (R : σ → τ → Prop) : Prop where
  initial : R S.initial T.initial
  internal : ∀ {s t s'}, R s t → S.step s none s' → R s' t
  visible : ∀ {s t s' e}, R s t → S.step s (some e) s' → ∃ t', T.step t (some e) t' ∧ R s' t'

theorem Simulation.run {S : System σ ε} {T : System τ ε} {R : σ → τ → Prop}
    (sim : Simulation S T R) {es : List ε} {s : σ} (h : Run S es s) :
    ∃ t, Run T es t ∧ R s t := by
  induction h with
  | start => exact ⟨T.initial, .start, sim.initial⟩
  | internal _ hs ih =>
    obtain ⟨t, ht, hr⟩ := ih
    exact ⟨t, ht, sim.internal hr hs⟩
  | visible _ hs ih =>
    obtain ⟨t, ht, hr⟩ := ih
    obtain ⟨t', hst, hr'⟩ := sim.visible hr hs
    exact ⟨t', .visible ht hst, hr'⟩

end LabelledRefinement
