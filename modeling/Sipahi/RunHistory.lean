import Sipahi.GuardedExecution
import Mathlib.Algebra.BigOperators.Group.Finset.Basic
import Mathlib.Algebra.Order.Ring.Nat
import Mathlib.Data.List.Induction

/-!
# Histories of a run

What the steps of a run leave behind, read from the states the run passes through. A counter that
some events raise and others clear holds the length of the streak since the last clearing one.
-/
namespace RunHistory

open GuardedExecution

variable {σ ε η α : Type*}

/-- The observations of a run, in order, up to the step that halts it. -/
def history (M : Machine σ ε η) (observe : σ → ε → List α) : σ → List ε → List α
  | _, [] => []
  | s, e :: es => observe s e ++
    match M.step s e with
    | .ok u => history M observe u es
    | .error _ => []

/-- The number of steps that pass the test. -/
def tally (M : Machine σ ε η) (test : σ → ε → Bool) : σ → List ε → ℕ
  | _, [] => 0
  | s, e :: es => (test s e).toNat +
    match M.step s e with
    | .ok u => tally M test u es
    | .error _ => 0

inductive Mark where
  | count | reset
  deriving DecidableEq, Repr

/-- The counted events since the last reset. -/
def streak (marks : List Mark) : ℕ := (marks.reverse.takeWhile (· == .count)).length

/-- A counter driven by marks. -/
def advance (n : ℕ) : List Mark → ℕ
  | [] => n
  | .count :: marks => advance (n + 1) marks
  | .reset :: marks => advance 0 marks

variable {M : Machine σ ε η}

theorem history_cons {observe : σ → ε → List α} {s u : σ} {e : ε} {es : List ε}
    (h : M.step s e = .ok u) :
    history M observe s (e :: es) = observe s e ++ history M observe u es := by
  rw [history, h]

theorem advance_append (n : ℕ) (l m : List Mark) :
    advance n (l ++ m) = advance (advance n l) m := by
  induction l generalizing n with
  | nil => rfl
  | cons mark l ih => cases mark <;> exact ih _

theorem streak_snoc_count (l : List Mark) : streak (l ++ [.count]) = streak l + 1 := by
  simp [streak]

theorem streak_snoc_reset (l : List Mark) : streak (l ++ [.reset]) = 0 := by
  simp [streak]

theorem advance_zero (l : List Mark) : advance 0 l = streak l := by
  induction l using List.reverseRecOn with
  | nil => rfl
  | append_singleton l mark ih =>
    rw [advance_append, ih]
    cases mark with
    | count => exact (streak_snoc_count l).symm
    | reset => exact (streak_snoc_reset l).symm

theorem run_advances {I : σ → Prop} {marks : σ → ε → List Mark} (counter : σ → ℕ)
    (hs : ∀ s e u, I s → M.step s e = .ok u → I u ∧ counter u = advance (counter s) (marks s e))
    {s v : σ} {es : List ε} (hi : I s) (h : run M s es = .ok v) :
    counter v = advance (counter s) (history M marks s es) := by
  induction es generalizing s with
  | nil =>
    cases h
    rfl
  | cons e es ih =>
    obtain ⟨u, hu, hv⟩ := run_cons_ok.mp h
    obtain ⟨hiu, hcount⟩ := hs s e u hi hu
    rw [history_cons hu, advance_append, ← hcount]
    exact ih hiu hv

theorem tally_cons {test : σ → ε → Bool} {s u : σ} {e : ε} {es : List ε}
    (h : M.step s e = .ok u) :
    tally M test s (e :: es) = (test s e).toNat + tally M test u es := by
  rw [tally, h]

theorem tally_eq_zero {test : σ → ε → Bool} {es : List ε}
    (h : ∀ e ∈ es, ∀ s, test s e = false) (s : σ) : tally M test s es = 0 := by
  induction es generalizing s with
  | nil => rfl
  | cons e es ih =>
    have hrest := ih fun e' he' => h e' (List.mem_cons_of_mem e he')
    rw [tally, h e List.mem_cons_self s]
    split
    · exact Nat.zero_add _ ▸ hrest _
    · rfl

theorem tally_countP {p : ε → Bool} {s v : σ} {es : List ε} (h : run M s es = .ok v) :
    tally M (fun _ => p) s es = es.countP p := by
  induction es generalizing s with
  | nil => rfl
  | cons e es ih =>
    obtain ⟨u, hu, hv⟩ := run_cons_ok.mp h
    rw [tally_cons hu, ih hv, List.countP_cons]
    cases p e <;> simp [Nat.add_comm]

theorem tally_or_le {p q : σ → ε → Bool} (s : σ) (es : List ε) :
    tally M (fun s e => p s e || q s e) s es ≤ tally M p s es + tally M q s es := by
  induction es generalizing s with
  | nil => exact Nat.le_refl _
  | cons e es ih =>
    have hor : (p s e || q s e).toNat ≤ (p s e).toNat + (q s e).toNat := by
      cases p s e <;> cases q s e <;> decide
    simp only [tally]
    split
    · rename_i u _
      have := ih u
      omega
    · omega

theorem run_shared {ι : Type*} {I : σ → Prop} {guard : σ → ε → Prop} {event lost : σ → ε → Bool}
    {share : ι → σ → ε → Bool} (members : Finset ι)
    (hs : ∀ s e u, I s → guard s e → M.step s e = .ok u →
      I u ∧ (event s e).toNat ≤ ∑ j ∈ members, (share j s e).toNat + (lost s e).toNat)
    {s v : σ} {es : List ε} (hi : I s) (hg : GuardedRun M guard s es) (h : run M s es = .ok v) :
    tally M event s es ≤ ∑ j ∈ members, tally M (share j) s es + tally M lost s es := by
  induction es generalizing s with
  | nil => exact Nat.zero_le _
  | cons e es ih =>
    obtain ⟨u, hu, hv⟩ := run_cons_ok.mp h
    obtain ⟨hiu, hstep⟩ := hs s e u hi hg.1 hu
    have hrest := ih hiu (hg.2 u hu) hv
    simp only [tally_cons hu, Finset.sum_add_distrib]
    omega

/-- A bucket: what is spent raises the level, and only a refill may lower it, by at most the
capacity. -/
theorem run_bucket_guarded {I : σ → Prop} {guard : σ → ε → Prop} {spend refill : σ → ε → Bool}
    {capacity : ℕ} (level : σ → ℕ)
    (hs : ∀ s e u, I s → guard s e → M.step s e = .ok u →
      I u ∧ (spend s e).toNat + level s ≤ capacity * (refill s e).toNat + level u)
    {s v : σ} {es : List ε} (hi : I s) (hg : GuardedRun M guard s es) (h : run M s es = .ok v) :
    tally M spend s es + level s ≤ capacity * tally M refill s es + level v := by
  induction es generalizing s with
  | nil =>
    cases h
    simp [tally]
  | cons e es ih =>
    obtain ⟨u, hu, hv⟩ := run_cons_ok.mp h
    obtain ⟨hiu, hstep⟩ := hs s e u hi hg.1 hu
    have hrest := ih hiu (hg.2 u hu) hv
    rw [tally_cons hu, tally_cons hu, Nat.mul_add]
    omega

theorem run_bucket {I : σ → Prop} {spend refill : σ → ε → Bool} {capacity : ℕ} (level : σ → ℕ)
    (hs : ∀ s e u, I s → M.step s e = .ok u →
      I u ∧ (spend s e).toNat + level s ≤ capacity * (refill s e).toNat + level u)
    {s v : σ} {es : List ε} (hi : I s) (h : run M s es = .ok v) :
    tally M spend s es + level s ≤ capacity * tally M refill s es + level v :=
  run_bucket_guarded level (fun s e u hx _ hu => hs s e u hx hu) hi (guardedRun_anyStep s es) h

theorem run_wraps {I : σ → Prop} {tick wrap : σ → ε → Bool} {period : ℕ} (counter : σ → ℕ)
    (hs : ∀ s e u, I s → M.step s e = .ok u → I u ∧ counter u < period ∧
      counter u + period * (wrap s e).toNat = counter s + (tick s e).toNat)
    {s v : σ} {es : List ε} (hi : I s) (h0 : counter s < period) (h : run M s es = .ok v) :
    tally M wrap s es = (counter s + tally M tick s es) / period ∧
      counter v = (counter s + tally M tick s es) % period := by
  have hall : counter v < period ∧
      counter v + period * tally M wrap s es = counter s + tally M tick s es := by
    induction es generalizing s with
    | nil =>
      cases h
      exact ⟨h0, by simp [tally]⟩
    | cons e es ih =>
      obtain ⟨u, hu, hv⟩ := run_cons_ok.mp h
      obtain ⟨hiu, hlt, hstep⟩ := hs s e u hi hu
      obtain ⟨hlt', hrest⟩ := ih hiu hlt hv
      rw [tally_cons hu, tally_cons hu, Nat.mul_add]
      omega
  obtain ⟨hlt, heq⟩ := hall
  rw [← heq, Nat.add_mul_div_left _ _ (Nat.zero_lt_of_lt h0), Nat.add_mul_mod_self_left,
    Nat.div_eq_of_lt hlt, Nat.mod_eq_of_lt hlt, Nat.zero_add]
  exact ⟨rfl, rfl⟩

/-- A queue that every step feeds with what it sends and drains of what it receives: nothing is
lost, duplicated or reordered over a run. -/
theorem run_conserves {I : σ → Prop} {sent received : σ → ε → List α} (queue : σ → List α)
    (hs : ∀ s e u, I s → M.step s e = .ok u →
      I u ∧ queue s ++ sent s e = received s e ++ queue u)
    {s v : σ} {es : List ε} (hi : I s) (h : run M s es = .ok v) :
    queue s ++ history M sent s es = history M received s es ++ queue v := by
  induction es generalizing s with
  | nil =>
    cases h
    simp [history]
  | cons e es ih =>
    obtain ⟨u, hu, hv⟩ := run_cons_ok.mp h
    obtain ⟨hiu, hstep⟩ := hs s e u hi hu
    have hrest := ih hiu hv
    rw [history_cons hu, history_cons hu]
    calc queue s ++ (sent s e ++ history M sent u es)
        = (queue s ++ sent s e) ++ history M sent u es := (List.append_assoc ..).symm
      _ = received s e ++ (queue u ++ history M sent u es) := by rw [hstep, List.append_assoc]
      _ = received s e ++ history M received u es ++ queue v := by rw [hrest, List.append_assoc]

end RunHistory
